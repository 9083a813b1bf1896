import DayNight.Channel.Sharing
import DayNight.Proofs.Channel.Backends
import DayNight.Proofs.Slot.File
import DayNight.Proofs.Slot.Recovery

namespace DayNight

namespace Shelf

variable {shelf shelf' other : Shelf} {path name : String} {kind : UInt16} {capacity : UInt64}
         {s : Slot} {file : SlotFile}

-- Where a file can be made, one can be opened, whatever else is on the shelf.
theorem locateParts_opening {parts : List String}
    (h : shelf.locateParts .creating parts = .file name) :
    other.locateParts .opening parts = .file name := by
  induction parts
  case nil => cases h
  case cons part rest ih =>
    simp only [locateParts] at h ⊢
    split at h
    case isTrue hs =>
      rw [if_pos hs]
      exact ih h
    case isFalse hs =>
      rw [if_neg hs]
      split at h
      case isTrue => cases h
      case isFalse hd =>
        rw [if_neg hd]
        split at h
        case isTrue hr =>
          rw [if_pos hr]
          exact h
        case isFalse => split at h <;> cases h

theorem locate_opening (h : shelf.locate .creating path = .file name) :
    other.locate .opening path = .file name := by
  simp only [locate] at h ⊢
  split at h
  case isTrue => cases h
  case isFalse hz =>
    split at h
    case isTrue => cases h
    case isFalse hl =>
      rw [if_neg hz, if_neg hl]
      exact locateParts_opening h

-- The file that was made is found at its path.
theorem find_of_create (h : shelf.create path kind capacity = (.ok (name, s), shelf'))
    (hf : other.get? name = some file) : other.find path = .ok (name, file) := by
  have hl : shelf.locate .creating path = .file name := by
    simp only [create] at h
    split at h
    case h_1 => cases h
    case h_2 hl =>
      split at h
      case h_1 => cases h
      case h_2 =>
        split at h
        case isTrue  => cases h
        case isFalse => cases h; exact hl
  rw [find, locate_opening hl]
  dsimp only
  rw [hf]

theorem get?_of_find (h : shelf.find path = .ok (name, file)) : shelf.get? name = some file := by
  simp only [find] at h
  split at h
  case h_1 => cases h
  case h_2 =>
    split at h
    case h_1 hf => cases h; exact hf
    case h_2    => cases h

theorem get?_put_of_get? {key : String} (h : shelf.get? name = some file) :
    (shelf.put name file).get? key = shelf.get? key := by
  by_cases hk : key = name
  case pos => rw [hk, get?_put_self, h]
  case neg => exact get?_put_of_ne hk

end Shelf

namespace Mounted

variable {α : Type} [Record α] {m : Mounted α} {name : String} {handle : Slot.Handle}
         {shelf : Shelf} {file : SlotFile} {value : α}

-- A channel that is mounted on the file of that name.
inductive On (name : String) (handle : Slot.Handle) : Mounted α → Prop
  | intro {slot stats} : On name handle ⟨⟨.sharedMemory handle slot, stats⟩, some name⟩

namespace On

omit [Record α] in
theorem file_eq (h : m.On name handle) : m.file = some name := by
  cases h
  rfl

theorem latest (h : m.On name handle) (hf : shelf.get? name = some file) :
    (m.latest shelf).1 = file.memory.latest handle := by
  cases h
  simp only [Mounted.latest, current, Option.bind_some, hf]
  rfl

omit [Record α] in
theorem current_eq (h : m.On name handle) (hf : shelf.get? name = some file) :
    m.current shelf = ⟨.sharedMemory handle file.memory, m.channel.stats⟩ := by
  cases h
  simp only [current, Option.bind_some, hf]
  rfl

theorem publish (h : m.On name handle) (hf : shelf.get? name = some file)
    (hv : Record.encodedLength value ≤ handle.capacity.toNat)
    (hs : handle.sequence.toNat + 1 < 2 ^ 64) : ∃ m',
      m.publish value shelf = (.ok (handle.sequence + 1), m', shelf.put name (file.update
        (file.memory.applyAll (Slot.publicationStores file.memory.generation
          (handle.sequence + 1) (Record.encode value))))) ∧
      m'.On name ⟨handle.capacity, handle.sequence + 1⟩ := by
  have hc := h.current_eq hf
  have hp := publish_of_lt (show (m.current shelf).backend.sequence.toNat + 1 < 2 ^ 64 from
    hc ▸ hs) value
  simp only [hc, Channel.publish, Backend.publish, Slot.publish, if_neg (Nat.not_lt.mpr hv)] at hp
  cases h
  simp only [written, Channel.slot?, hf] at hp
  exact ⟨_, hp, .intro⟩

-- A user who has the last number cannot publish any more.
theorem spent (h : m.On name handle) (hf : shelf.get? name = some file)
    (hv : Record.encodedLength value ≤ handle.capacity.toNat)
    (hs : 2 ^ 64 ≤ handle.sequence.toNat + 1) :
    m.publish value shelf = (.error (.overflow .add), m, shelf) := by
  have hc := h.current_eq hf
  have hp : ((m.current shelf).publish value).1 = .ok (handle.sequence + 1) := by
    simp only [hc, Channel.publish, Backend.publish, Slot.publish, if_neg (Nat.not_lt.mpr hv)]
  exact publish_of_le (hc ▸ hs) hp

-- What is refused leaves the file as it is.
theorem refuse (h : m.On name handle) (hf : shelf.get? name = some file)
    (hv : handle.capacity.toNat < Record.encodedLength value) : ∃ m',
      m.publish value shelf =
        (.error (.payloadTooLarge (Record.encodedLength value) handle.capacity.toNat), m',
          shelf.put name file) ∧
      m'.On name handle := by
  have hc := h.current_eq hf
  have hr : ((m.current shelf).publish value).1 =
      .error (.payloadTooLarge (Record.encodedLength value) handle.capacity.toNat) := by
    simp only [hc, Channel.publish, Backend.publish, Slot.publish, if_pos hv]
  have hp := publish_of_error hr
  simp only [hc, Channel.publish, Backend.publish, Slot.publish, if_pos hv] at hp
  cases h
  simp only [written, Channel.slot?, hf] at hp
  exact ⟨_, hp, .intro⟩

-- So do the reads.
theorem read (h : m.On name handle) (hf : shelf.get? name = some file)
    {operation : Channel.Operation α} (ho : operation.value? = none) : ∃ answer m',
      Site.step ⟨m, shelf⟩ operation = (answer, ⟨m', shelf⟩) ∧ m'.On name handle := by
  cases h
  cases operation
  case publish => cases ho
  all_goals
    simp only [Site.step, Mounted.latest, Mounted.latestSequence, current, Option.bind_some, hf]
    exact ⟨_, _, rfl, .intro⟩

end On

theorem find_of_create {shelf' other : Shelf} {path : String} {capacity : UInt64}
    (h : create shelf path capacity = (.ok m, shelf')) (hn : m.file = some name)
    (hf : other.get? name = some file) : other.find path = .ok (name, file) := by
  simp only [create] at h
  split at h
  case h_1 => cases h
  case h_2 hs =>
    cases h
    cases hn
    exact Shelf.find_of_create hs hf

theorem find_of_attach {path shown : String} (h : attach shelf path shown = .ok m) :
    ∃ name file, m.file = some name ∧ shelf.find path = .ok (name, file) := by
  simp only [attach, Shelf.attach] at h
  split at h
  case h_1 => cases h
  case h_2 ha =>
    cases h
    split at ha
    case h_1 => cases ha
    case h_2 hf =>
      split at ha
      case h_1 => cases ha
      case h_2 =>
        split at ha
        case h_1 => cases ha
        case h_2 => cases ha; exact ⟨_, _, rfl, hf⟩

-- Whoever attaches goes on from the newest record.
theorem attach_of_find {path : String} (shown : String) {capacity : UInt64}
    {records : List Bytes} (h : shelf.find path = .ok (name, file))
    (hc : 64 + capacity.toNat < 2 ^ 64) (hw : file.Written (Record.kind α) capacity records) :
    ∃ m : Mounted α, attach shelf path shown = .ok m ∧
      m.On name ⟨capacity, .ofNat records.length⟩ := by
  have ⟨s, hs, ha⟩ := hw.attach hc
  refine ⟨⟨.attached ⟨capacity, .ofNat records.length⟩ s, some name⟩, ?_, .intro⟩
  simp only [attach, Shelf.attach, h, hs, ha]

end Mounted

-- A user of the file of that name. One that is abreast knows how much has been published.
def Sharer.Mounts {α : Type} (name : String) (capacity : UInt64) (n : Nat) (sharer : Sharer α) :
    Prop :=
  ∃ number, sharer.mounted.On name ⟨capacity, number⟩ ∧ (sharer.abreast → number = .ofNat n)

namespace Sharing

open Channel (Operation)
open Mounted (Site)

variable {α : Type} [Record α] {s t : Sharing α} {name path : String} {capacity number : UInt64}
         {sharer : Sharer α} {m : Mounted α} {shelf : Shelf} {file : SlotFile} {value : α} {i : Nat}

def records (s : Sharing α) : List Bytes := s.published.map fun p => Record.encode p.value

-- What is known of a file whose users write one after the other.
structure Kept (name : String) (capacity : UInt64) (s : Sharing α) : Prop where
  file    : s.file = some name
  counted : 64 + capacity.toNat < 2 ^ 64
  written : ∃ file, s.shelf.get? name = some file ∧
    file.Written (Record.kind α) capacity s.records
  numbers : s.published.map (·.sequence) =
    (List.range' 1 s.published.length).reverse.map .ofNat
  sharers : ∀ sharer ∈ s.sharers, sharer.Mounts name capacity s.published.length

theorem numbers_succ (n : Nat) : (List.range' 1 (n + 1)).reverse.map UInt64.ofNat =
    .ofNat (n + 1) :: (List.range' 1 n).reverse.map .ofNat := by
  rw [List.range'_1_concat, List.reverse_append, List.map_append, Nat.add_comm 1]
  rfl

theorem step_use (hi : s.sharers[i]? = some sharer) {operation : Operation α} :
    s.step (.use i operation) = s.use i sharer operation := by
  rw [step, hi]
  rfl

theorem use_of_ok (h : sharer.mounted.publish value s.shelf = (.ok number, m, shelf)) :
    s.use i sharer (.publish value) = if sharer.abreast then
      some { s with
        shelf := shelf
        sharers := (s.sharers.map Sharer.overtaken).set i ⟨m, true⟩
        published := ⟨number, value⟩ :: s.published }
    else none := by
  simp only [use, Site.step, h]

theorem use_of_error {e : ChannelError}
    (h : sharer.mounted.publish value s.shelf = (.error e, m, shelf)) :
    s.use i sharer (.publish value) = some { s with
      shelf := shelf, sharers := s.sharers.set i { sharer with mounted := m } } := by
  simp only [use, Site.step, h]

theorem use_of_read {operation : Operation α} {answer : Channel.Answer α}
    (ho : operation.value? = none)
    (h : Site.step ⟨sharer.mounted, s.shelf⟩ operation = (answer, ⟨m, shelf⟩)) :
    s.use i sharer operation = some { s with
      shelf := shelf, sharers := s.sharers.set i { sharer with mounted := m } } := by
  cases operation
  case publish => cases ho
  all_goals simp only [use, h]

namespace Kept

-- A user has done something that has not changed the file.
theorem idle (h : s.Kept name capacity)
    (hm : Sharer.Mounts name capacity s.published.length { sharer with mounted := m })
    (hf : ∀ key, shelf.get? key = s.shelf.get? key) : Kept name capacity { s with
      shelf := shelf, sharers := s.sharers.set i { sharer with mounted := m } } where
  file    := h.file
  counted := h.counted
  written := by
    have ⟨file, hg, hw⟩ := h.written
    exact ⟨file, (hf name).trans hg, hw⟩
  numbers := h.numbers
  sharers := fun other ho => by
    obtain ho | rfl := List.mem_or_eq_of_mem_set ho
    · exact h.sharers other ho
    · exact hm

-- A user who is abreast can publish, and has overtaken all others then.
theorem publish [Record.Lawful α] (h : s.Kept name capacity) (hi : s.sharers[i]? = some sharer)
    (ha : sharer.abreast) (hv : Record.encodedLength value ≤ capacity.toNat)
    (hn : (UInt64.ofNat s.published.length).toNat + 1 < 2 ^ 64) : ∃ t m,
      s.step (.use i (.publish value)) = some t ∧ t.Kept name capacity ∧
      t.published = ⟨.ofNat (s.published.length + 1), value⟩ :: s.published ∧
      t.sharers = (s.sharers.map Sharer.overtaken).set i ⟨m, true⟩ := by
  have ⟨file, hf, hw⟩ := h.written
  have ⟨number, hon, habreast⟩ := h.sharers sharer (List.mem_of_getElem? hi)
  obtain rfl := habreast ha
  have ⟨m, hp, hm⟩ := hon.publish hf hv hn
  rw [← UInt64.ofNat_one, ← UInt64.ofNat_add] at hp hm
  refine ⟨_, m, by rw [step_use hi, use_of_ok hp, if_pos ha], ?_, rfl, rfl⟩
  exact {
    file    := h.file
    counted := h.counted
    written := by
      have hle : (Record.encode value).length ≤ capacity.toNat :=
        Record.Lawful.length_encode value ▸ hv
      have hp := hw.publish hle
      rw [records, List.length_map] at hp
      exact ⟨_, Shelf.get?_put_self, hp⟩
    numbers := by rw [List.map_cons, h.numbers, List.length_cons, numbers_succ]
    sharers := fun other ho => by
      obtain ho | rfl := List.mem_or_eq_of_mem_set ho
      · obtain ⟨sharer, hs, rfl⟩ := List.mem_map.mp ho
        have ⟨number, hon, _⟩ := h.sharers sharer hs
        exact ⟨number, hon, nofun⟩
      · exact ⟨_, hm, fun _ => rfl⟩ }

-- Everybody can attach.
theorem attach (h : s.Kept name capacity) (shown : String)
    (hf : s.shelf.find path = .ok (name, file)) : ∃ m : Mounted α,
      Mounted.attach s.shelf path shown = .ok m ∧
      m.On name ⟨capacity, .ofNat s.published.length⟩ ∧
      s.step (.attach path shown) = some { s with sharers := s.sharers ++ [⟨m, true⟩] } ∧
      Kept name capacity { s with sharers := s.sharers ++ [⟨m, true⟩] } := by
  have ⟨_, hf', hw⟩ := h.written
  cases (Shelf.get?_of_find hf).symm.trans hf'
  have ⟨m, hm, hon⟩ := Mounted.attach_of_find shown hf h.counted hw
  rw [records, List.length_map] at hon
  refine ⟨m, hm, hon, ?_, { h with sharers := fun sharer hs => ?_ }⟩
  · simp only [Sharing.step, hm]
    rw [if_pos (hon.file_eq.trans h.file.symm)]
  · obtain hs | hs := List.mem_append.mp hs
    · exact h.sharers sharer hs
    · obtain rfl := List.mem_singleton.mp hs
      exact ⟨_, hon, fun _ => rfl⟩

theorem use [Record.Lawful α] (h : s.Kept name capacity) {operation : Operation α}
    (ht : s.step (.use i operation) = some t) :
    t.Kept name capacity ∧
      (t.published = s.published → ∀ key, t.shelf.get? key = s.shelf.get? key) := by
  obtain ⟨sharer, hi, ht⟩ := Option.bind_eq_some_iff.mp ht
  have ⟨file, hf, _⟩ := h.written
  have ⟨number, hon, habreast⟩ := h.sharers sharer (List.mem_of_getElem? hi)
  cases ho : operation.value?
  case none =>
    have ⟨answer, m, hr, hm⟩ := hon.read hf ho
    cases (use_of_read ho hr).symm.trans ht
    exact ⟨h.idle ⟨number, hm, habreast⟩ fun _ => rfl, fun _ _ => rfl⟩
  case some value =>
    obtain rfl : operation = .publish value := by cases operation <;> cases ho; rfl
    by_cases hv : Record.encodedLength value ≤ capacity.toNat
    case neg =>
      have ⟨m, hp, hm⟩ := hon.refuse hf (Nat.not_le.mp hv)
      cases (use_of_error hp).symm.trans ht
      have hk (key : String) : (s.shelf.put name file).get? key = s.shelf.get? key :=
        Shelf.get?_put_of_get? hf
      exact ⟨h.idle ⟨number, hm, habreast⟩ hk, fun _ => hk⟩
    case pos =>
      by_cases hs : number.toNat + 1 < 2 ^ 64
      case neg =>
        cases (use_of_error (hon.spent hf hv (Nat.not_lt.mp hs))).symm.trans ht
        exact ⟨h.idle ⟨number, hon, habreast⟩ fun _ => rfl, fun _ _ => rfl⟩
      case pos =>
        cases ha : sharer.abreast
        case false =>
          have ⟨m, hp, _⟩ := hon.publish hf hv hs
          rw [use_of_ok hp, ha] at ht
          cases ht
        case true =>
          have ⟨_, _, hu, hk, hp, _⟩ := h.publish hi ha hv (habreast ha ▸ hs)
          cases ((step_use hi).symm.trans hu).symm.trans ht
          exact ⟨hk, fun hn => absurd (hp.symm.trans hn) (List.cons_ne_self _ _)⟩

-- An action publishes a value, or it leaves all files as they are.
theorem step [Record.Lawful α] (h : s.Kept name capacity) {action : Action α}
    (ht : s.step action = some t) : t.Kept name capacity ∧
      (t.published = s.published → ∀ key, t.shelf.get? key = s.shelf.get? key) := by
  cases action
  case use i operation => exact h.use ht
  case attach path shown =>
    cases hm : (Mounted.attach s.shelf path shown : Except ChannelError (Mounted α))
    case error =>
      simp only [Sharing.step, hm] at ht
      cases ht
      exact ⟨h, fun _ _ => rfl⟩
    case ok m =>
      simp only [Sharing.step, hm] at ht
      split at ht
      case isFalse => cases ht
      case isTrue hfile =>
        have ⟨_, _, hn, hf⟩ := Mounted.find_of_attach hm
        cases hn.symm.trans (hfile.trans h.file)
        have ⟨_, hm', _, _, hk⟩ := h.attach shown hf
        cases hm.symm.trans hm'
        cases ht
        exact ⟨hk, fun _ _ => rfl⟩

-- What a user reads is the newest record.
theorem latest (h : s.Kept name capacity) (hn : s.published.length < 2 ^ 63)
    (hm : m.On name ⟨capacity, number⟩) :
    (m.latest s.shelf).1 = s.published.head?.bind Slot.delivered := by
  have ⟨file, hf, hw⟩ := h.written
  have hs := h.numbers
  have hl : s.records.length = s.published.length := List.length_map _
  rw [hm.latest hf, Slot.latest, hw.memory.read (hl ▸ hn), hl]
  cases hp : s.published
  case nil => rw [records, hp]; rfl
  case cons p ps =>
    rw [hp, List.map_cons, List.length_cons, numbers_succ] at hs
    rw [records, hp, List.length_cons, ← (List.cons.inj hs).1]
    rfl

-- The next publication of a user who is abreast bears the next number.
theorem next [Record.Lawful α] (h : s.Kept name capacity) (hn : s.published.length < 2 ^ 63)
    (hm : m.On name ⟨capacity, .ofNat s.published.length⟩)
    (hv : Record.encodedLength value ≤ capacity.toNat) :
    (m.publish value s.shelf).1 = .ok (.ofNat (s.published.length + 1)) := by
  have ⟨file, hf, _⟩ := h.written
  have hs : (UInt64.ofNat s.published.length).toNat + 1 < 2 ^ 64 := by
    rw [UInt64.toNat_ofNat_of_lt' (Nat.lt_trans hn (by decide))]
    omega
  have ⟨_, hp, _⟩ := hm.publish hf hv hs
  rw [hp, UInt64.ofNat_add]
  rfl

end Kept

theorem run_kept [Record.Lawful α] (h : s.Kept name capacity) {actions : List (Action α)}
    (ht : s.run actions = some t) : t.Kept name capacity := by
  induction actions generalizing s
  case nil => cases ht; exact h
  case cons action actions ih =>
    have ⟨u, hu, ht⟩ := Option.bind_eq_some_iff.mp ht
    exact ih (h.step hu).1 ht

theorem kept_new (hc : 64 + capacity.toNat < 2 ^ 64)
    (hf : shelf.get? name = some (.ofSlot (.empty (Record.kind α) capacity))) :
    (Sharing.new ⟨.creatorOf (α := α) capacity, some name⟩ shelf).Kept name capacity where
  file    := rfl
  counted := hc
  written := ⟨_, hf, SlotFile.written_ofSlot⟩
  numbers := rfl
  sharers := fun sharer hs => by
    obtain rfl := List.mem_singleton.mp hs
    exact ⟨0, .intro, fun _ => rfl⟩

end Sharing

open Sharing

-- However many have used the file, and whatever was refused or read in between: its bytes are what
-- the publications have made of it, the newest over the ones before. Everybody reads the newest
-- one, whoever attaches now does too, and the next publication bears the next number. Nothing but a
-- publication changes a file. That ends when the generation, which goes up by two with each
-- publication, begins anew.
theorem shared_file_is_kept {α : Type} [Record α] [Record.Lawful α] {shelf shelf' : Shelf}
    {path : String} {capacity : UInt64} {creator : Mounted α} {actions : List (Action α)}
    {s : Sharing α} (hc : Mounted.create shelf path capacity = (.ok creator, shelf'))
    (hs : (Sharing.new creator shelf').run actions = some s) (hn : s.published.length < 2 ^ 63) :
    (∃ name file, creator.file = some name ∧ s.shelf.get? name = some file ∧
      Slot.Layout (Record.kind α) capacity s.records file.toBytes) ∧
    s.published.map (·.sequence) = (List.range' 1 s.published.length).reverse.map .ofNat ∧
    (∀ sharer ∈ s.sharers,
      (sharer.mounted.latest s.shelf).1 = s.published.head?.bind Slot.delivered ∧
      (sharer.abreast → ∀ value, Record.encodedLength value ≤ capacity.toNat →
        (sharer.mounted.publish value s.shelf).1 = .ok (.ofNat (s.published.length + 1)))) ∧
    (∀ shown, ∃ m : Mounted α, Mounted.attach s.shelf path shown = .ok m ∧
      m.file = creator.file ∧
      (m.latest s.shelf).1 = s.published.head?.bind Slot.delivered ∧
      ∀ value, Record.encodedLength value ≤ capacity.toNat →
        (m.publish value s.shelf).1 = .ok (.ofNat (s.published.length + 1))) ∧
    (∀ action t, s.step action = some t → t.published = s.published →
      ∀ name, t.shelf.get? name = s.shelf.get? name) := by
  obtain ⟨name, rfl, hf, hroom⟩ := Mounted.created hc
  have hk := run_kept (kept_new hroom hf) hs
  have ⟨file, hfile, hw⟩ := hk.written
  refine ⟨⟨name, file, rfl, hfile, ?_⟩, hk.numbers, fun sharer hm => ?_, fun shown => ?_,
    fun action t ht => (hk.step ht).2⟩
  · exact hw.layout (by rwa [records, List.length_map])
  · have ⟨number, hon, habreast⟩ := hk.sharers sharer hm
    refine ⟨hk.latest hn hon, fun ha value hv => ?_⟩
    obtain rfl := habreast ha
    exact hk.next hn hon hv
  · have ⟨m, hm, hon, _⟩ := hk.attach shown (Mounted.find_of_create hc rfl hfile)
    exact ⟨m, hm, hon.file_eq, hk.latest hn hon, fun value => hk.next hn hon⟩

-- A detection with a box is published; then another user publishes one without any, and the box is
-- still there behind it.
theorem shared_file_is_kept_box_then_none : ∃ (creator : Mounted Detection) (shelf : Shelf)
    (s : Sharing Detection) (file : SlotFile),
    Mounted.create .empty "slot" 48 = (.ok creator, shelf) ∧
    (Sharing.new creator shelf).run [.use 0 (.publish ⟨[⟨1, ⟨0⟩, 0, 0, 2, 2⟩], ⟨5⟩, 7⟩),
      .attach "slot" "slot", .use 1 (.publish ⟨[], ⟨7⟩, 9⟩)] = some s ∧
    s.shelf.get? "slot" = some file ∧
    file.toBytes.length = 112 ∧ file.toBytes.number 16 8 = 4 ∧ file.toBytes.number 24 8 = 2 ∧
    file.toBytes.number 32 8 = 24 ∧ file.toBytes[64 + 24]? = some 1 ∧
    ∃ m : Mounted Detection, Mounted.attach s.shelf "slot" "slot" = .ok m ∧
      (m.latest s.shelf).1 = some ⟨2, ⟨[], ⟨7⟩, 9⟩⟩ ∧
      (m.publish ⟨[], ⟨8⟩, 10⟩ s.shelf).1 = .ok 3 := by
  have hc : Mounted.create (α := Detection) .empty "slot" 48 =
      (.ok ⟨.creatorOf 48, some "slot"⟩, Shelf.empty.put "slot" (.ofSlot (.empty 2 48))) := by
    rw [Mounted.create, Shelf.create_slot (by decide)]
    rfl
  have hk : (Sharing.new (α := Detection) ⟨.creatorOf 48, some "slot"⟩
      (Shelf.empty.put "slot" (.ofSlot (.empty 2 48)))).Kept "slot" 48 :=
    kept_new (by decide) Shelf.get?_put_self
  have hv : Record.encodedLength (⟨[⟨1, ⟨0⟩, 0, 0, 2, 2⟩], ⟨5⟩, 7⟩ : Detection) ≤ 48 := by decide
  obtain ⟨s₁, m₁, h₁, hk₁, hp₁, hm₁⟩ := hk.publish (i := 0) rfl rfl hv (by decide)
  obtain ⟨_, hf₁, _⟩ := hk₁.written
  obtain ⟨m₂, _, _, h₂, hk₂⟩ := hk₁.attach "slot" (Mounted.find_of_create hc rfl hf₁)
  have hv : Record.encodedLength (⟨[], ⟨7⟩, 9⟩ : Detection) ≤ 48 := by decide
  obtain ⟨s₃, m₃, h₃, _, hp₃, _⟩ := hk₂.publish (i := 1) (by dsimp only; rw [hm₁]; rfl) rfl hv
    (by dsimp only; rw [hp₁]; decide)
  have hs : (Sharing.new ⟨.creatorOf 48, some "slot"⟩
      (Shelf.empty.put "slot" (.ofSlot (.empty 2 48)))).run
        [.use 0 (.publish ⟨[⟨1, ⟨0⟩, 0, 0, 2, 2⟩], ⟨5⟩, 7⟩), .attach "slot" "slot",
          .use 1 (.publish ⟨[], ⟨7⟩, 9⟩)] = some s₃ := by
    simp only [run, List.foldlM_cons, List.foldlM_nil, h₁, h₂, h₃, Option.bind_eq_bind,
      Option.bind_some, Option.pure_def]
  rw [hp₁] at hp₃
  have hn : s₃.published.length = 2 := by rw [hp₃]; rfl
  obtain ⟨⟨name, file, hname, hf, hlayout⟩, _, _, hattach, _⟩ :=
    shared_file_is_kept hc hs (by rw [hn]; decide)
  obtain rfl : "slot" = name := Option.some.inj hname
  obtain ⟨m, hm, _, hlatest, hnext⟩ := hattach "slot"
  rw [records, hp₃] at hlayout
  rw [hp₃] at hlatest
  rw [hn] at hnext
  exact ⟨_, _, s₃, file, hc, hs, hf, hlayout.length, hlayout.generation, hlayout.sequence,
    hlayout.recordLength, hlayout.record 24 (by decide), m, hm, hlatest, hnext _ (by decide)⟩

end DayNight
