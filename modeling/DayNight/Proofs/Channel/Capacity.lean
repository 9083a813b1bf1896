import DayNight.Proofs.Channel.Backends

namespace DayNight

namespace Mounted

open Channel (Operation)

variable {α : Type} {m : Mounted α} {capacity : UInt64}

def Bounded (capacity : UInt64) (m : Mounted α) : Prop := m.channel.backend.Bounded capacity

-- Others may change the slot, but not how long records may be.
theorem Bounded.current (h : m.Bounded capacity) (shelf : Shelf) :
    (m.current shelf).backend.Bounded capacity := by
  obtain ⟨⟨backend, stats⟩, file⟩ := m
  rw [Mounted.current]
  split
  case h_1 =>
    cases h
    case inProcess    => exact .inProcess
    case sharedMemory => exact .sharedMemory
  case h_2 => exact h

variable [Record α]

-- The channel is asked to take the value, and says that it is too long.
def Refuses (m : Mounted α) (shelf : Shelf) (value : α) : Prop :=
  ∃ length limit, (Site.step ⟨m, shelf⟩ (.publish value)).1 =
    .published (.error (.payloadTooLarge length limit))

-- The channel after it has been used, with this and that on the shelf each time.
def after (m : Mounted α) (uses : List (Shelf × Operation α)) : Mounted α :=
  uses.foldl (fun m (shelf, operation) => (Site.step ⟨m, shelf⟩ operation).2.mounted) m

namespace Bounded

theorem refuses_iff (h : m.Bounded capacity) {shelf : Shelf} {value : α} :
    m.Refuses shelf value ↔ capacity.toNat < Record.encodedLength value := by
  have hc := h.current shelf
  by_cases hv : capacity.toNat < Record.encodedLength value
  case pos =>
    have hp : ((m.current shelf).publish value).1 =
        .error (.payloadTooLarge (Record.encodedLength value) capacity.toNat) := by
      rw [Channel.publish, hc.publish_of_lt hv]
    have hs := publish_of_error hp
    simp only [hp] at hs
    simp [Refuses, Site.step, hs, hv]
  case neg =>
    obtain ⟨number, _, hp, _⟩ := hc.publish_of_le (Nat.not_lt.mp hv)
    have hp : ((m.current shelf).publish value).1 = .ok number := by
      rw [Channel.publish, hp]
    obtain hs | ⟨_, hs⟩ := publish_cases m shelf value
    · simp [Refuses, Site.step, hs, hp, hv]
    · simp [Refuses, Site.step, hs, hv]

theorem step (h : m.Bounded capacity) (shelf : Shelf) (operation : Operation α) :
    (Site.step ⟨m, shelf⟩ operation).2.mounted.Bounded capacity := by
  have hc := h.current shelf
  cases operation
  case publish value =>
    have hp : ((m.current shelf).publish value).2.backend.Bounded capacity := by
      rw [Channel.publish]
      by_cases hv : capacity.toNat < Record.encodedLength value
      case pos => rw [hc.publish_of_lt hv]; exact hc
      case neg =>
        obtain ⟨_, _, hp, hb⟩ := hc.publish_of_le (Nat.not_lt.mp hv)
        rw [hp]
        exact hb
    simp only [Site.step]
    obtain hs | ⟨_, hs⟩ := publish_cases m shelf value
    · rw [hs]; exact hp
    · rw [hs]; exact h
  case stats => exact h
  all_goals exact hc

theorem after (h : m.Bounded capacity) (uses : List (Shelf × Operation α)) :
    (m.after uses).Bounded capacity := by
  induction uses generalizing m
  case nil            => exact h
  case cons use _ ih => exact ih (h.step use.1 use.2)

end Bounded

-- Whatever it has been through, the channel refuses what is larger than this and nothing else.
def RefusesAbove (m : Mounted α) (size : α → Nat) (limit : Nat) : Prop :=
  ∀ uses shelf value, (m.after uses).Refuses shelf value ↔ limit < size value

theorem Bounded.refusesAbove (h : m.Bounded capacity) :
    m.RefusesAbove Record.encodedLength capacity.toNat :=
  fun uses _ _ => (h.after uses).refuses_iff

-- Records have a header and so many bytes for each unit of the value's size.
theorem Bounded.refusesAbove_size (h : m.Bounded capacity) {size : α → Nat}
    {header unit limit : Nat} (hu : 0 < unit)
    (hl : ∀ value : α, Record.encodedLength value = header + size value * unit)
    (hc : capacity.toNat = header + limit * unit) : m.RefusesAbove size limit := by
  intro uses shelf value
  rw [h.refusesAbove, hl, hc, Nat.add_lt_add_iff_left, Nat.mul_lt_mul_right hu]

-- What becomes of a channel that is to take values up to some size, for which so many bytes have to
-- be counted.
structure KeepsTo (size : α → Nat) (limit bytes : Nat)
    (answer : Except ChannelError (Mounted α)) : Prop where
  refuses   : ∀ m, answer = .ok m → m.RefusesAbove size limit
  counted   : ∀ m, answer = .ok m → bytes < 2 ^ 64
  breaksOff : ∀ o, answer = .error (.overflow o) → 2 ^ 64 ≤ bytes
  otherwise : ∀ e, answer = .error e → (∃ o, e = .overflow o) ∨ ∃ fault, e = .file fault

end Mounted

-- How many bytes are counted for a channel with records up to this length. A file has a header.
def Config.Storage.bytes : Config.Storage → Nat → Nat
  | inProcess, length    => length
  | sharedMemory, length => 64 + length

theorem Config.Storage.le_bytes (storage : Config.Storage) (length : Nat) :
    length ≤ storage.bytes length := by
  cases storage
  case inProcess    => exact Nat.le_refl _
  case sharedMemory => exact Nat.le_add_left ..

theorem Shelf.error_of_create {shelf shelf' : Shelf} {path : String} {kind : UInt16}
    {capacity : UInt64} {e : ChannelError}
    (h : shelf.create path kind capacity = (.error e, shelf')) :
    (∃ fault, e = .file fault) ∨ (∃ o, e = .overflow o) ∧ 2 ^ 64 ≤ 64 + capacity.toNat := by
  simp only [create] at h
  split at h
  case h_1 => cases h; exact .inl ⟨_, rfl⟩
  case h_2 =>
    split at h
    case h_1 o hw =>
      cases h
      refine .inr ⟨⟨o, rfl⟩, Nat.not_lt.mp fun hlt => ?_⟩
      cases hw.symm.trans (Word.add_of_lt (a := 64) hlt).1
    case h_2 =>
      split at h
      case isTrue  => cases h; exact .inl ⟨_, rfl⟩
      case isFalse => cases h

namespace Mounted

variable {α : Type} [Record α] {m : Mounted α} {storage : Config.Storage}
         {directory file : String} {lengths : Except Overflow UInt64} {shelf shelf' : Shelf}

theorem bounded_of_configured
    (h : configured storage directory file lengths shelf = (.ok m, shelf')) : ∃ capacity,
      lengths = .ok capacity ∧ m.Bounded capacity ∧ storage.bytes capacity.toNat < 2 ^ 64 := by
  obtain ⟨capacity, hl, hc⟩ := configured_ok h
  refine ⟨capacity, hl, ?_⟩
  cases hc
  case inProcess       => exact ⟨.inProcess, capacity.toNat_lt⟩
  case sharedMemory hc => exact ⟨.sharedMemory, hc⟩

theorem error_of_configured {e : ChannelError}
    (h : (configured (α := α) storage directory file lengths shelf).1 = .error e) :
    (∃ fault, e = .file fault) ∨ (∃ o, e = .overflow o) ∧
      ∀ capacity, lengths = .ok capacity → 2 ^ 64 ≤ storage.bytes capacity.toNat := by
  cases lengths
  case error o => cases h; exact .inr ⟨⟨o, rfl⟩, nofun⟩
  case ok capacity =>
    cases storage
    case inProcess => cases h
    case sharedMemory =>
      simp only [configured, create] at h
      generalize hs : shelf.create (directory ++ "/" ++ file) (Record.kind α) capacity = made at h
      obtain ⟨_ | ⟨_, _⟩, _⟩ := made
      case ok => cases h
      case error =>
        cases h
        obtain hf | ⟨ho, hc⟩ := Shelf.error_of_create hs
        · exact .inl hf
        · refine .inr ⟨ho, ?_⟩
          rintro _ ⟨⟩
          exact hc

theorem configured_keepsTo {size : α → Nat} {header unit limit : Nat} (hu : 0 < unit)
    (hl : ∀ value : α, Record.encodedLength value = header + size value * unit)
    (hc : ∀ capacity, lengths = .ok capacity ↔ capacity.toNat = header + limit * unit) :
    KeepsTo size limit (storage.bytes (header + limit * unit))
      (configured (α := α) storage directory file lengths shelf).1 where
  refuses m hm := by
    obtain ⟨capacity, hn, hb, _⟩ := bounded_of_configured (Prod.ext hm rfl)
    exact hb.refusesAbove_size hu hl ((hc capacity).mp hn)
  counted m hm := by
    obtain ⟨capacity, hn, _, hlt⟩ := bounded_of_configured (Prod.ext hm rfl)
    exact (hc capacity).mp hn ▸ hlt
  breaksOff o ho := by
    obtain ⟨_, ⟨⟩⟩ | ⟨_, hle⟩ := error_of_configured ho
    by_contra hlt
    have hlt := Nat.not_le.mp hlt
    have hn : (UInt64.ofNat (header + limit * unit)).toNat = header + limit * unit :=
      UInt64.toNat_ofNat_of_lt' (Nat.lt_of_le_of_lt (storage.le_bytes _) hlt)
    exact absurd (hn ▸ hle _ ((hc _).mpr hn)) (Nat.not_le.mpr hlt)
  otherwise e he := by
    obtain hf | ⟨ho, _⟩ := error_of_configured he
    · exact .inr hf
    · exact .inl ho

end Mounted

open Mounted (frames detections KeepsTo configured_keepsTo)

-- A channel that comes about refuses what is larger than the configuration says, and nothing else.
-- No length that is computed for it wraps around: the program breaks off where one does not fit a
-- machine word.
theorem refuses_above_configured (c : Config.Channels) (shelf : Shelf) :
    let pixelBytes := c.frameCapacity.toNat
    let boxes := c.maxDetections.toNat
    KeepsTo (·.image.data.length) pixelBytes (c.storage.bytes (40 + pixelBytes))
      (frames c shelf).1 ∧
    KeepsTo (·.boxes.length) boxes (c.storage.bytes (24 + boxes * 24)) (detections c shelf).1 := by
  intro pixelBytes boxes
  constructor
  · have hl (frame : Frame) : Record.encodedLength frame = 40 + frame.image.data.length * 1 :=
      congrArg (40 + ·) (Nat.mul_one _).symm
    have hk : KeepsTo (·.image.data.length) pixelBytes (c.storage.bytes (40 + pixelBytes * 1))
        (frames c shelf).1 :=
      configured_keepsTo Nat.one_pos hl fun _ => by rw [Frame.encodedCapacity_eq_ok, Nat.mul_one]
    rwa [Nat.mul_one] at hk
  · exact configured_keepsTo (by decide) (fun _ => rfl) fun _ => Detection.encodedCapacity_eq_ok

-- By default there is room for frames of 1920 by 1080 pixels, and for ten boxes.
theorem refuses_above_default : ∃ (fs : Mounted Frame) (ds : Mounted Detection),
    frames {} .empty = (.ok fs, .empty) ∧ detections {} .empty = (.ok ds, .empty) ∧
    fs.RefusesAbove (·.image.data.length) 3110400 ∧ ds.RefusesAbove (·.boxes.length) 10 := by
  have hf : frames {} .empty = (.ok (.inProcess (some 3110440)), .empty) := rfl
  have hd : detections {} .empty = (.ok (.inProcess (some 264)), .empty) := rfl
  have ⟨hfs, hds⟩ := refuses_above_configured {} .empty
  exact ⟨_, _, hf, hd, hfs.refuses _ (congrArg Prod.fst hf), hds.refuses _ (congrArg Prod.fst hd)⟩

end DayNight
