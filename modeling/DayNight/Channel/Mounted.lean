import DayNight.Channel.Basic
import DayNight.Config.Basic
import DayNight.Slot.Shelf

namespace DayNight

-- A channel, and the file that it is mapped onto if it is shared. At each of its operations it sees
-- what its file holds at that moment, whoever wrote it.
structure Mounted (α : Type) where
  channel : Channel α
  file : Option String

namespace Mounted

variable {α : Type}

def inProcess (capacity : Option UInt64) : Mounted α := ⟨.inProcess capacity, none⟩

-- Mounts a channel on a new slot file, or on the emptied one that is there.
def create [Record α] (shelf : Shelf) (path : String) (capacity : UInt64) :
    Except ChannelError (Mounted α) × Shelf :=
  match shelf.create path (Record.kind α) capacity with
  | (.error e, shelf) => (.error e, shelf)
  | (.ok (name, _), shelf) => (.ok ⟨Channel.creatorOf capacity, some name⟩, shelf)

-- Mounts a channel on the slot file at the path, which messages call `shown`.
def attach [Record α] (shelf : Shelf) (path shown : String) : Except ChannelError (Mounted α) :=
  match shelf.attach path shown (Record.kind α) with
  | .error e => .error e
  | .ok (name, handle, slot) => .ok ⟨.attached handle slot, some name⟩

def current (m : Mounted α) (shelf : Shelf) : Channel α :=
  match m.file.bind shelf.get? with
  | some file => m.channel.withSlot file.memory
  | none => m.channel

def written (m : Mounted α) (channel : Channel α) (shelf : Shelf) : Shelf :=
  match m.file, channel.slot? with
  | some name, some slot =>
    match shelf.get? name with
    | some file => shelf.put name (file.update slot)
    | none => shelf
  | _, _ => shelf

-- A slot may say that the last number has been given away, whatever has been published.
def publish [Record α] (m : Mounted α) (value : α) (shelf : Shelf) :
    Except ChannelError UInt64 × Mounted α × Shelf :=
  let current := m.current shelf
  match current.publish value, Word.add current.backend.sequence 1 with
  | (.ok _, _), .error o => (.error (.overflow o), m, shelf)
  | (answer, channel), _ => (answer, { m with channel := channel }, m.written channel shelf)

theorem publish_of_lt [Record α] {m : Mounted α} {shelf : Shelf}
    (h : (m.current shelf).backend.sequence.toNat + 1 < UInt64.size) (value : α) :
    let answer := (m.current shelf).publish value
    m.publish value shelf =
      (answer.1, { m with channel := answer.2 }, m.written answer.2 shelf) := by
  have hw := (Word.add_of_lt (b := 1) h).1
  simp only [publish, hw]

theorem publish_of_le [Record α] {m : Mounted α} {shelf : Shelf} {value : α} {number : UInt64}
    (h : UInt64.size ≤ (m.current shelf).backend.sequence.toNat + 1)
    (hp : ((m.current shelf).publish value).1 = .ok number) :
    m.publish value shelf = (.error (.overflow .add), m, shelf) := by
  have hw := Word.add_of_le (b := 1) h
  simp only [publish, hw]
  generalize (m.current shelf).publish value = answer at hp
  obtain ⟨_ | _, _⟩ := answer
  case error => cases hp
  case ok    => rfl

-- What does not fit is refused in any case.
theorem publish_of_error [Record α] {m : Mounted α} {shelf : Shelf} {value : α} {e : ChannelError}
    (hp : ((m.current shelf).publish value).1 = .error e) :
    let answer := (m.current shelf).publish value
    m.publish value shelf =
      (answer.1, { m with channel := answer.2 }, m.written answer.2 shelf) := by
  simp only [publish]
  generalize (m.current shelf).publish value = answer at hp
  obtain ⟨_ | _, _⟩ := answer
  case error => rfl
  case ok    => cases hp

theorem publish_cases [Record α] (m : Mounted α) (shelf : Shelf) (value : α) :
    let answer := (m.current shelf).publish value
    m.publish value shelf =
      (answer.1, { m with channel := answer.2 }, m.written answer.2 shelf) ∨
    (∃ number, answer.1 = .ok number) ∧
      m.publish value shelf = (.error (.overflow .add), m, shelf) := by
  cases hp : ((m.current shelf).publish value).1
  case error => exact .inl (publish_of_error hp)
  case ok number =>
    by_cases h : (m.current shelf).backend.sequence.toNat + 1 < UInt64.size
    case pos => exact .inl (publish_of_lt h value)
    case neg => exact .inr ⟨⟨number, hp⟩, publish_of_le (Nat.not_lt.mp h) hp⟩

def latest [Record α] (m : Mounted α) (shelf : Shelf) : Option (Published α) × Mounted α :=
  let (newest, channel) := (m.current shelf).latest
  (newest, { m with channel := channel })

def latestSequence [Record α] (m : Mounted α) (shelf : Shelf) : UInt64 × Mounted α :=
  let (sequence, channel) := (m.current shelf).latestSequence
  (sequence, { m with channel := channel })

def frameFile : String := "petcam_frames.slot"

def detectionFile : String := "petcam_detections.slot"

-- The channel that a configuration asks for; `directory` is where its slot files go.
def configured [Record α] (storage : Config.Storage) (directory file : String)
    (capacity : Except Overflow UInt64) (shelf : Shelf) : Except ChannelError (Mounted α) × Shelf :=
  match capacity, storage with
  | .error o, _ => (.error (.overflow o), shelf)
  | .ok capacity, .inProcess => (.ok (inProcess (some capacity)), shelf)
  | .ok capacity, .sharedMemory => create shelf (directory ++ "/" ++ file) capacity

def frames (c : Config.Channels) (shelf : Shelf) : Except ChannelError (Mounted Frame) × Shelf :=
  configured c.storage c.directory frameFile (Frame.encodedCapacity c.frameCapacity) shelf

def detections (c : Config.Channels) (shelf : Shelf) :
    Except ChannelError (Mounted Detection) × Shelf :=
  configured c.storage c.directory detectionFile (Detection.encodedCapacity c.maxDetections) shelf

end Mounted

end DayNight
