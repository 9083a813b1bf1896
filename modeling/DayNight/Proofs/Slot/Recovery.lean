import DayNight.Channel.Succession
import DayNight.Proofs.Slot.Reading
import DayNight.Proofs.Slot.Shelf
import DayNight.Record.Detection
import Mathlib.Data.List.Induction

namespace DayNight.Slot

open Medium

section

variable {α : Type} [Record α] {capacity : UInt64} {s : Slot} {p : Published α}
         {ps : List (Published α)} {store : Store} {next : UInt64} {left : List Store}

-- What readers get of a publication that is whole.
def delivered (p : Published α) : Option (Published α) :=
  Copy.decode? ⟨p.sequence, Record.encode p.value⟩

theorem delivered_of_carried (h : Carried p.value) : delivered p = some p :=
  decode_of_carried h

-- What is known of a slot wherever its last writer has stopped. The generation tells whether the
-- record in it is whole.
structure Sound (capacity : UInt64) (s : Slot) (ps : List (Published α)) : Prop where
  magic    : s.magic = magicNumber
  version  : s.version = currentVersion
  kind     : s.kind = Record.kind α
  declared : s.capacity = capacity
  counted  : 64 + capacity.toNat < 2 ^ 64
  room     : capacity.toNat ≤ s.record.size
  rounds   : s.rounds = ps.length
  keeps    : s.generation.toNat % 2 = 0 → ∀ p ∈ ps.head?, s.Keeps capacity p
  numbers  : ∀ p ∈ ps, p.sequence.toNat ≤ s.sequence.toNat

theorem sound_empty (h : 64 + capacity.toNat < 2 ^ 64) :
    Sound (α := α) capacity (.empty (Record.kind α) capacity) [] where
  magic    := rfl
  version  := rfl
  kind     := rfl
  declared := rfl
  counted  := h
  room     := Nat.le_of_eq size_empty.symm
  rounds   := by simp [empty, Slot.rounds]
  keeps    := nofun
  numbers  := nofun

namespace Sound

-- Another process can attach, and goes on from the number that it finds.
theorem attach (h : s.Sound capacity ps) :
    s.attach (Record.kind α) = .ok ⟨capacity, s.sequence⟩ :=
  attach_ok h.magic h.version h.kind h.declared h.counted h.room

-- Whoever reads it gets the last publication that is through, unless the next one has begun.
theorem latest (h : s.Sound capacity ps) (sequence : UInt64) :
    (s.latest ⟨capacity, sequence⟩ : Option (Published α)) =
      if s.generation.toNat % 2 = 1 then none else ps.head?.bind delivered := by
  have hr := h.rounds
  rw [Slot.rounds] at hr
  by_cases ho : s.generation.toNat % 2 = 1
  case pos =>
    rw [if_pos ho, Slot.latest, read_of_odd (UInt64.toNat_inj.mp ho)]
    rfl
  case neg =>
    rw [if_neg ho]
    cases ps
    case nil =>
      have h0 : s.generation.toNat = 0 := by
        rw [List.length_nil] at hr
        omega
      rw [Slot.latest, read_of_empty (UInt64.toNat_inj.mp h0)]
      rfl
    case cons p ps =>
      have h0 : s.generation ≠ 0 := fun h0 => by simp [h0] at hr
      have h1 : s.generation % 2 ≠ 1 := fun h1 => ho (congrArg UInt64.toNat h1)
      exact (h.keeps (by omega) p rfl).latest h0 h1 h.room

end Sound

theorem toNat_next (h : next.toNat + 1 < 2 ^ 64) : (next + 1).toNat = next.toNat + 1 := by
  rw [UInt64.toNat_add]
  exact Nat.mod_eq_of_lt (by simpa using h)

theorem busy_odd (g : UInt64) : (busy g).toNat = 2 * (g.toNat / 2) + 1 := by
  have hd : (g.toNat ||| 1) / 2 = g.toNat / 2 := by simp [Nat.or_div_two]
  have hm : (g.toNat ||| 1) % 2 = 1 := by simp [Nat.or_mod_two_eq_one]
  have hb : (busy g).toNat = g.toNat ||| 1 := UInt64.toNat_or ..
  omega

-- The stores of a publication after the first.
inductive Data (next : UInt64) : List Store → Prop
  | last {g : UInt64} : Data next [.generation g]
  | sequence {left : List Store} : Data next left → Data next (.sequence next :: left)
  | length {n : UInt64} {left : List Store} : Data next left → Data next (.recordLength n :: left)
  | byte {i : Nat} {b : UInt8} {left : List Store} : Data next left →
    Data next (.recordByte i b :: left)

theorem data_publication {g length : UInt64} {offset : Nat} {bytes : Bytes} : Data next
    (.sequence next :: .recordLength length :: recordStores offset bytes ++ [.generation g]) := by
  refine .sequence (.length ?_)
  induction bytes generalizing offset
  case nil         => exact .last
  case cons _ _ ih => exact .byte ih

theorem Sound.first (h : s.Sound capacity ps) :
    (s.apply (.generation (busy s.generation))).Sound capacity ps := by
  have hb : (s.apply (.generation (busy s.generation))).generation.toNat =
    2 * (s.generation.toNat / 2) + 1 := busy_odd s.generation
  exact { h with
    rounds := by rw [← h.rounds, Slot.rounds, Slot.rounds]; omega
    keeps  := fun he => by omega }

-- Whatever lies in the slot, it is not read.
theorem Sound.within (h : s.Sound capacity ps) (ho : s.generation.toNat % 2 = 1)
    (hg : (s.apply store).generation = s.generation)
    (hn : s.sequence.toNat ≤ (s.apply store).sequence.toNat) :
    (s.apply store).Sound capacity ps where
  magic    := by rw [← h.magic]; cases store <;> rfl
  version  := by rw [← h.version]; cases store <;> rfl
  kind     := by rw [← h.kind]; cases store <;> rfl
  declared := by rw [apply_capacity, h.declared]
  counted  := h.counted
  room     := by rw [apply_record_size]; exact h.room
  rounds   := by rw [← h.rounds, Slot.rounds, Slot.rounds, hg]
  keeps    := fun he => by rw [hg] at he; omega
  numbers  := fun p hp => Nat.le_trans (h.numbers p hp) hn

-- How far a publication is.
inductive Course (s : Slot) (next : UInt64) : List Store → Prop
  | first {left : List Store} : Data next left →
    Course s next (.generation (busy s.generation) :: left)
  | within {left : List Store} : s.generation.toNat % 2 = 1 → Data next left → Course s next left
  | through : Course s next []

-- A publication under way. Its writer may stop before any of the stores that are left.
structure Underway (capacity : UInt64) (s : Slot) (ps : List (Published α)) (p : Published α)
    (left : List Store) : Prop where
  course : s.Course p.sequence left
  sound  : left ≠ [] → s.Sound capacity ps
  number : s.sequence.toNat ≤ p.sequence.toNat
  last   : (s.applyAll left).sequence = p.sequence
  whole  : (s.applyAll left).Sound capacity (p :: ps)

namespace Underway

theorem step (h : s.Underway capacity ps p (store :: left)) :
    (s.apply store).Underway capacity ps p left ∧
    s.sequence.toNat ≤ (s.apply store).sequence.toNat := by
  have ⟨hcourse, hsound, hn, hlast, hwhole⟩ := h
  have hs := hsound nofun
  cases hcourse
  case first hd =>
    have ho : (s.apply (.generation (busy s.generation))).generation.toNat % 2 = 1 := by
      have hb : (s.apply (.generation (busy s.generation))).generation.toNat =
        2 * (s.generation.toNat / 2) + 1 := busy_odd s.generation
      omega
    exact ⟨⟨.within ho hd, fun _ => hs.first, hn, hlast, hwhole⟩, Nat.le_refl _⟩
  case within ho hd =>
    cases hd
    case last => exact ⟨⟨.through, fun h => absurd rfl h, hn, hlast, hwhole⟩, Nat.le_refl _⟩
    case sequence hd =>
      exact ⟨⟨.within ho hd, fun _ => hs.within ho rfl hn, Nat.le_refl _, hlast, hwhole⟩, hn⟩
    case length hd | byte hd =>
      exact ⟨⟨.within ho hd, fun _ => hs.within ho rfl (Nat.le_refl _), hn, hlast, hwhole⟩,
        Nat.le_refl _⟩

end Underway

omit [Record α] in
theorem applyAll_record_size (stores : List Store) :
    (s.applyAll stores).record.size = s.record.size := by
  induction stores generalizing s
  case nil               => rfl
  case cons store _ ih => rw [applyAll_cons, ih, apply_record_size]

-- A publication that goes through can be read.
theorem Sound.whole [Record.Lawful α] (h : s.Sound capacity ps) {value : α}
    (hn : ps.length + 1 < 2 ^ 63) (hf : Record.encodedLength value ≤ capacity.toNat)
    (hs : s.sequence.toNat ≤ next.toNat) : (s.applyAll
      (publicationStores s.generation next (Record.encode value))).Sound capacity
        (⟨next, value⟩ :: ps) := by
  have hle : (Record.encode value).length ≤ capacity.toNat := Record.Lawful.length_encode value ▸ hf
  have hlength : (Record.encode value).length ≤ s.record.size := Nat.le_trans hle h.room
  have hr := h.rounds
  have hg : (busy s.generation + 1).toNat = 2 * ps.length + 2 := by
    rw [Slot.rounds] at hr
    rw [UInt64.toNat_add, busy_odd, hr]
    exact Nat.mod_eq_of_lt (by simp; omega)
  have hsize := s.applyAll_record_size (publicationStores s.generation next (Record.encode value))
  have hfound : (s.applyAll (publicationStores s.generation next (Record.encode value))).found
      (Record.encode value).length = Record.encode value := found_publication hlength
  rw [applyAll_publicationStores hlength] at hsize hfound ⊢
  exact { h with
    room    := hsize ▸ h.room
    rounds  := by rw [Slot.rounds, hg, List.length_cons]; omega
    keeps   := by
      rintro _ _ ⟨⟩
      exact {
        sequence := rfl
        length   := Nat.mod_eq_of_lt (Nat.lt_of_le_of_lt hle capacity.toNat_lt)
        record   := hfound
        fits     := hle }
    numbers := by
      intro p hp
      obtain rfl | hp := List.mem_cons.mp hp
      · exact Nat.le_refl _
      · exact Nat.le_trans (h.numbers p hp) hs }

-- The writer that has just attached publishes.
theorem Sound.publish [Record.Lawful α] (h : s.Sound capacity ps) {value : α}
    (hn : ps.length + 1 < 2 ^ 63) (hs : s.sequence.toNat + 1 < 2 ^ 64)
    (hf : Record.encodedLength value ≤ capacity.toNat) : ∃ s',
      s.publish ⟨capacity, s.sequence⟩ value =
        (.ok (s.sequence + 1), ⟨capacity, s.sequence + 1⟩, s') ∧
      ∀ sequence, s'.latest ⟨capacity, sequence⟩ = delivered ⟨s.sequence + 1, value⟩ := by
  have hle : s.sequence.toNat ≤ (s.sequence + 1).toNat := by
    rw [toNat_next hs]
    exact Nat.le_succ _
  have hw := h.whole hn hf hle
  refine ⟨_, by rw [Slot.publish, if_neg (Nat.not_lt.mpr hf)], fun sequence => ?_⟩
  have he : (s.applyAll (publicationStores s.generation (s.sequence + 1)
      (Record.encode value))).generation.toNat % 2 ≠ 1 := by
    have hle : (Record.encode value).length ≤ s.record.size :=
      Nat.le_trans (Record.Lawful.length_encode value ▸ hf) h.room
    rw [applyAll_publicationStores hle, UInt64.toNat_add, busy_odd]
    simp only [UInt64.toNat_ofNat]
    omega
  rw [hw.latest, if_neg he]
  rfl

theorem Sound.underway [Record.Lawful α] (h : s.Sound capacity ps) {value : α}
    (hn : ps.length + 1 < 2 ^ 63) (hf : Record.encodedLength value ≤ capacity.toNat)
    (hs : s.sequence.toNat ≤ next.toNat) : s.Underway capacity ps ⟨next, value⟩
      (publicationStores s.generation next (Record.encode value)) where
  course := .first data_publication
  sound  := fun _ => h
  number := hs
  last   := by
    have hle : (Record.encode value).length ≤ s.record.size :=
      Nat.le_trans (Record.Lawful.length_encode value ▸ hf) h.room
    rw [applyAll_publicationStores hle]
  whole  := h.whole hn hf hs

end

-- The number that a reader has got so far.
def Reader.number? : Reader → Option UInt64
  | sawSequence _ _ sequence => some sequence
  | copying _ _ sequence _ _ => some sequence
  | finished (some copy) => some copy.sequence
  | _ => none

namespace Reader

variable {s : Slot} {reader : Reader} {port : UInt64} {n : Nat}

theorem number_step (hn : s.sequence.toNat ≤ n) (h : ∀ q ∈ reader.number?, q.toNat ≤ n) :
    ∀ q ∈ (reader.step port s).number?, q.toNat ≤ n := by
  cases reader
  case starting attempt =>
    simp only [step]
    repeat' split
    all_goals
      intro _ hq
      cases hq
  case sawGeneration => simpa [step, number?] using hn
  case sawSequence =>
    simp only [step]
    split
    case isTrue  => intro _ hq; cases hq
    case isFalse => exact h
  case copying left copied =>
    cases left
    case succ => exact h
    case zero =>
      simp only [step]
      split
      case isTrue  => exact h
      case isFalse => intro _ hq; cases hq
  case finished => exact h

theorem number_result {α : Type} [Record α] {answer : Option (Published α)}
    (h : ∀ q ∈ reader.number?, q.toNat ≤ n) (hr : reader.result? = some answer) :
    ∀ p ∈ answer, p.sequence.toNat ≤ n := by
  cases reader
  case finished copy =>
    cases copy
    case none => cases hr; exact nofun
    case some copy =>
      cases hr
      intro p hp
      obtain ⟨value, _, rfl⟩ := Option.map_eq_some_iff.mp hp
      exact h copy.sequence rfl
  all_goals cases hr

end Reader

end DayNight.Slot

namespace DayNight.Medium

open Slot

variable {α : Type} [Record α] {capacity : UInt64}

-- A reader of a slot has not got beyond this number.
structure Listener.Within (n : Nat) (l : Listener (Slot.medium (α := α) capacity)) : Prop where
  reading : ∀ before reader, l.reading = some (before, reader) →
    ∀ q ∈ Reader.number? reader, q.toNat ≤ n
  heard   : ∀ h ∈ l.heard, ∀ p ∈ h.answer, p.sequence.toNat ≤ n

namespace Succession

-- What a slot keeps through the lives of its writers, when so many publications have been begun.
structure Kept (u : Succession (Slot.medium (α := α) capacity)) (begun : Nat) : Prop where
  idle      : u.traffic.writing = none → u.traffic.memory.Sound capacity u.traffic.published
  underway  : ∀ w, u.traffic.writing = some w →
    u.traffic.memory.Underway capacity u.traffic.published w.publication w.left
  known     : u.alive → u.traffic.writing = none →
    u.traffic.sequence = u.traffic.memory.sequence
  alive     : ∀ w, u.traffic.writing = some w → u.alive
  number    : u.traffic.memory.sequence.toNat ≤ begun
  next      : ∀ w, u.traffic.writing = some w → w.publication.sequence.toNat ≤ begun
  listeners : ∀ l ∈ u.traffic.listeners, l.Within u.traffic.memory.sequence.toNat

namespace Kept

variable {u v : Succession (Slot.medium (α := α) capacity)} {begun more : Nat}

theorem later (h : u.Kept begun) (hm : begun ≤ more) : u.Kept more :=
  { h with
    number := Nat.le_trans h.number hm
    next   := fun w hw => Nat.le_trans (h.next w hw) hm }

theorem hear (h : u.Kept begun) {listeners : List (Listener (Slot.medium (α := α) capacity))}
    (hl : ∀ l ∈ listeners, l.Within u.traffic.memory.sequence.toNat) :
    Kept { u with traffic := { u.traffic with listeners := listeners } } begun :=
  { h with listeners := hl }

theorem join (h : u.Kept begun) (port : Handle) :
    Kept { u with traffic := u.traffic.addListener port } begun :=
  h.hear fun l hl => by
    obtain hl | hl := List.mem_append.mp hl
    · exact h.listeners l hl
    · obtain rfl := List.mem_singleton.mp hl
      exact ⟨nofun, nofun⟩

theorem replace (h : u.Kept begun) {i : Nat} {l : Listener (Slot.medium (α := α) capacity)}
    (hl : l.Within u.traffic.memory.sequence.toNat) :
    Kept { u with traffic := u.traffic.setListener i l } begun :=
  h.hear fun k hk => by
    obtain hk | rfl := List.mem_or_eq_of_mem_set hk
    · exact h.listeners k hk
    · exact hl

theorem read (h : u.Kept begun) {action : Traffic.Action α} (ha : action.isWriters = false)
    {t : Traffic (Slot.medium (α := α) capacity)} (ht : u.traffic.step action = some t) :
    Kept { u with traffic := t } begun := by
  cases action
  case join => cases ht; exact h.join _
  case attach =>
    obtain ⟨port, _, rfl⟩ := Option.map_eq_some_iff.mp ht
    exact h.join port
  case ask i =>
    simp only [Traffic.step] at ht
    split at ht
    case h_1 port heard hl =>
      cases ht
      have hw := h.listeners _ (List.mem_of_getElem? hl)
      refine h.replace ⟨?_, hw.heard⟩
      rintro _ _ ⟨⟩ _ hq
      cases hq
    case h_2 => cases ht
  case load i =>
    simp only [Traffic.step] at ht
    split at ht
    case h_1 port before reader heard hl =>
      cases ht
      have hw := h.listeners _ (List.mem_of_getElem? hl)
      refine h.replace ⟨?_, hw.heard⟩
      rintro _ _ ⟨⟩
      exact Reader.number_step (Nat.le_refl _) (hw.reading before reader rfl)
    case h_2 => cases ht
  case answer i =>
    simp only [Traffic.step] at ht
    split at ht
    case h_1 port before reader heard hl =>
      obtain ⟨answer, hr, rfl⟩ := Option.map_eq_some_iff.mp ht
      have hw := h.listeners _ (List.mem_of_getElem? hl)
      refine h.replace ⟨?_, fun k hk => ?_⟩
      · intro _ _ hn
        cases hn
      · obtain rfl | hk := List.mem_cons.mp hk
        · exact Reader.number_result (hw.reading before reader rfl) hr
        · exact hw.heard k hk
    case h_2 => cases ht
  all_goals cases ha

theorem begin [Record.Lawful α] (h : u.Kept begun) (ha : u.alive)
    (hw : u.traffic.writing = none) {value : α}
    (hf : Record.encodedLength value ≤ capacity.toNat)
    (hn : u.traffic.published.length + 1 < 2 ^ 63) (hb : begun + 1 < 2 ^ 64) :
    Kept { u with traffic := { u.traffic with
      writing := some ⟨⟨u.traffic.sequence + 1, value⟩,
        (Slot.medium capacity).stores u.traffic.memory (u.traffic.sequence + 1) value⟩ } }
      (begun + 1) := by
  have hnumber := h.number
  have hnext : (u.traffic.sequence + 1).toNat = u.traffic.memory.sequence.toNat + 1 := by
    rw [h.known ha hw]
    exact toNat_next (by omega)
  exact {
    idle      := nofun
    underway  := by
      rintro _ ⟨⟩
      exact (h.idle hw).underway hn hf (by omega)
    known     := fun _ => nofun
    alive     := fun _ _ => ha
    number    := Nat.le_succ_of_le hnumber
    next      := by
      rintro _ ⟨⟩
      show (u.traffic.sequence + 1).toNat ≤ _
      omega
    listeners := h.listeners }

theorem store (h : u.Kept begun) {p : Published α} {first : Slot.Store} {left : List Slot.Store}
    (hw : u.traffic.writing = some ⟨p, first :: left⟩) :
    Kept { u with traffic := { u.traffic with
      memory := u.traffic.memory.apply first, writing := some ⟨p, left⟩ } } begun := by
  have ⟨hstep, hle⟩ := (h.underway _ hw).step
  have hp : p.sequence.toNat ≤ begun := h.next _ hw
  exact {
    idle      := nofun
    underway  := by rintro _ ⟨⟩; exact hstep
    known     := fun _ => nofun
    alive     := fun _ _ => h.alive _ hw
    number    := Nat.le_trans hstep.number hp
    next      := by rintro _ ⟨⟩; exact hp
    listeners := fun l hl => by
      have ⟨hr, hh⟩ := h.listeners l hl
      exact ⟨fun _ _ hl q hq => Nat.le_trans (hr _ _ hl q hq) hle,
        fun k hk q hq => Nat.le_trans (hh k hk q hq) hle⟩ }

-- The last store of a publication has been made.
theorem through (h : u.Kept begun) {p : Published α} (hw : u.traffic.writing = some ⟨p, []⟩)
    {alive : Bool} {sequence : UInt64} (hs : alive → sequence = p.sequence) :
    Kept ⟨{ u.traffic with
      sequence := sequence, writing := none, published := p :: u.traffic.published }, alive⟩
      begun := by
  have hu := h.underway _ hw
  exact {
    idle      := fun _ => hu.whole
    underway  := nofun
    known     := fun ha _ => (hs ha).trans hu.last.symm
    alive     := nofun
    number    := h.number
    next      := nofun
    listeners := h.listeners }

theorem takeOver (h : u.Kept begun) (hw : u.traffic.writing = none) {sequence : UInt64}
    (hs : (Slot.medium (α := α) capacity).reopen u.traffic.memory = some sequence) :
    Kept ⟨{ u.traffic with sequence := sequence }, true⟩ begun :=
  { h with
    known := fun _ _ => by
      have ha : (u.traffic.memory.attach (Record.kind α)).toOption.map (·.sequence) =
        some sequence := hs
      rw [(h.idle hw).attach] at ha
      exact (Option.some.inj ha).symm
    alive := fun _ _ => rfl }

theorem die (h : u.Kept begun) : Kept ⟨u.traffic.orphaned, false⟩ begun := by
  unfold Traffic.orphaned
  split
  case h_1 p hw => exact h.through hw nofun
  case h_2 hn =>
    have hidle : u.traffic.memory.Sound capacity u.traffic.published := by
      cases hw : u.traffic.writing
      case none => exact h.idle hw
      case some w =>
        obtain ⟨p, left⟩ := w
        refine (h.underway _ hw).sound fun hl => ?_
        subst hl
        exact hn p hw
    exact { h with
      idle     := fun _ => hidle
      underway := nofun
      known    := nofun
      alive    := nofun
      next     := nofun }

theorem act [Record.Lawful α] (h : u.Kept begun) {action : Traffic.Action α}
    (ha : u.alive ∨ action.isWriters = false) {t : Traffic (Slot.medium (α := α) capacity)}
    (ht : u.traffic.step action = some t) (hn : t.published.length + 1 < 2 ^ 63)
    (hb : (Action.acts action).begins → begun + 1 < 2 ^ 64) : Kept { u with traffic := t }
      (begun + if (Action.acts action).begins then 1 else 0) := by
  cases hw : action.isWriters
  case false =>
    exact (h.read hw ht).later (Nat.le_add_right ..)
  case true =>
    have hl : u.alive := ha.resolve_right (by simp [hw])
    cases action
    case begin value =>
      simp only [Traffic.step] at ht
      split at ht
      case isTrue => cases ht; exact h.later (Nat.le_add_right ..)
      case isFalse hf =>
        split at ht
        case h_1 => cases ht
        case h_2 hw =>
          cases ht
          exact h.begin hl hw (by simpa [Slot.medium] using hf) hn (hb rfl)
    case store =>
      simp only [Traffic.step] at ht
      split at ht
      case h_1 hw => cases ht; exact h.store hw
      case h_2 => cases ht
    case finish =>
      simp only [Traffic.step] at ht
      split at ht
      case h_1 hw => cases ht; exact h.through hw fun _ => rfl
      case h_2 => cases ht
    case reopen =>
      simp only [Traffic.step] at ht
      split at ht
      case h_1 => cases ht
      case h_2 hw =>
        obtain ⟨sequence, hs, rfl⟩ := Option.map_eq_some_iff.mp ht
        have hk := h.takeOver hw hs
        rwa [← hl] at hk
    all_goals cases hw

theorem step [Record.Lawful α] (h : u.Kept begun) {action : Action α}
    (hv : u.step action = some v) (hn : v.traffic.published.length + 1 < 2 ^ 63)
    (hb : action.begins → begun + 1 < 2 ^ 64) :
    v.Kept (begun + if action.begins then 1 else 0) := by
  cases action
  case acts action =>
    simp only [Succession.step] at hv
    split at hv
    case isTrue ha =>
      obtain ⟨t, ht, rfl⟩ := Option.map_eq_some_iff.mp hv
      exact h.act (by simpa using ha) ht hn hb
    case isFalse => cases hv
  case dies =>
    simp only [Succession.step] at hv
    split at hv
    case isTrue  => cases hv; exact h.die
    case isFalse => cases hv
  case succeeds =>
    simp only [Succession.step] at hv
    split at hv
    case isTrue => cases hv
    case isFalse ha =>
      obtain ⟨sequence, hs, rfl⟩ := Option.map_eq_some_iff.mp hv
      have hw : u.traffic.writing = none := by
        cases hw : u.traffic.writing
        case none   => rfl
        case some w => exact absurd (h.alive w hw) ha
      exact h.takeOver hw hs

end Kept

variable {u v : Succession (Slot.medium (α := α) capacity)} {actions : List (Action α)}

theorem kept_quiet (h : 64 + capacity.toNat < 2 ^ 64) :
    Kept (.quiet (m := Slot.medium (α := α) capacity) (.empty (Record.kind α) capacity)) 0 where
  idle      := fun _ => sound_empty h
  underway  := nofun
  known     := fun _ _ => rfl
  alive     := nofun
  number    := Nat.le_refl _
  next      := nofun
  listeners := nofun

omit [Record α] in
theorem run_concat {m : Medium α} {u : Succession m} {actions : List (Action α)}
    {action : Action α} : u.run (actions ++ [action]) = (u.run actions).bind (·.step action) := by
  simp [run]

omit [Record α] in
theorem step_published {m : Medium α} {t t' : Traffic m} {action : Traffic.Action α}
    (h : t.step action = some t') : t.published <:+ t'.published := by
  cases action <;> simp only [Traffic.step] at h
  case join => cases h; exact List.suffix_rfl
  case attach =>
    obtain ⟨_, _, rfl⟩ := Option.map_eq_some_iff.mp h
    exact List.suffix_rfl
  case reopen =>
    split at h
    case h_1 => cases h
    case h_2 =>
      obtain ⟨_, _, rfl⟩ := Option.map_eq_some_iff.mp h
      exact List.suffix_rfl
  case answer =>
    split at h
    case h_1 =>
      obtain ⟨_, _, rfl⟩ := Option.map_eq_some_iff.mp h
      exact List.suffix_rfl
    case h_2 => cases h
  case begin =>
    split at h
    case isTrue => cases h; exact List.suffix_rfl
    case isFalse =>
      split at h
      case h_1 => cases h
      case h_2 => cases h; exact List.suffix_rfl
  case finish =>
    split at h
    case h_1 => cases h; exact List.suffix_cons ..
    case h_2 => cases h
  all_goals
    split at h
    case h_1 => cases h; exact List.suffix_rfl
    case h_2 => cases h

omit [Record α] in
-- Publications that are through stay so.
theorem length_published_le {m : Medium α} {u v : Succession m} {action : Action α}
    (h : u.step action = some v) : u.traffic.published.length ≤ v.traffic.published.length := by
  cases action
  case acts action =>
    simp only [Succession.step] at h
    split at h
    case isTrue =>
      obtain ⟨t, ht, rfl⟩ := Option.map_eq_some_iff.mp h
      exact (step_published ht).length_le
    case isFalse => cases h
  case dies =>
    simp only [Succession.step] at h
    split at h
    case isTrue =>
      cases h
      unfold Traffic.orphaned
      split
      case h_1 => exact Nat.le_succ _
      case h_2 => exact Nat.le_refl _
    case isFalse => cases h
  case succeeds =>
    simp only [Succession.step] at h
    split at h
    case isTrue => cases h
    case isFalse =>
      obtain ⟨_, _, rfl⟩ := Option.map_eq_some_iff.mp h
      exact Nat.le_refl _

theorem run_kept [Record.Lawful α] (h : u.Kept 0) (hr : u.run actions = some v)
    (hn : v.traffic.published.length + 1 < 2 ^ 63) (hb : actions.countP Action.begins < 2 ^ 64) :
    v.Kept (actions.countP Action.begins) := by
  induction actions using List.reverseRecOn generalizing v
  case nil =>
    obtain rfl : u = v := by simpa [run] using hr
    exact h
  case append_singleton actions action ih =>
    rw [run_concat] at hr
    obtain ⟨w, hw, hv⟩ := Option.bind_eq_some_iff.mp hr
    rw [List.countP_append, List.countP_singleton] at hb ⊢
    have hle := length_published_le hv
    refine (ih hw (by omega) (by omega)).step hv hn fun ha => ?_
    simpa [ha] using hb

end Succession

end DayNight.Medium

namespace DayNight

open Medium

-- When a writer has died, readers get the last publication that is through, or nothing if another
-- one was under way. The next writer goes on with a number that nobody has got before, and then its
-- publication can be read. That ends when the generation, which counts every publication that is
-- through twice, or the numbers begin anew.
theorem writers_recover {α : Type} [Record α] [Record.Lawful α] {shelf shelf' : Shelf}
    {path name : String} {capacity : UInt64} {s₀ : Slot}
    (hs : shelf.create path (Record.kind α) capacity = (.ok (name, s₀), shelf'))
    {actions : List (Succession.Action α)} {u : Succession (Slot.medium (α := α) capacity)}
    (hr : (Succession.quiet s₀).run actions = some u)
    (ha : u.alive = false) (hn : u.traffic.published.length + 1 < 2 ^ 63)
    (hb : actions.countP Succession.Action.begins + 1 < 2 ^ 64) :
    let s : Slot := u.traffic.memory
    (∀ sequence, (s.latest ⟨capacity, sequence⟩ : Option (Published α)) =
      if s.generation.toNat % 2 = 1 then none
      else u.traffic.published.head?.bind Slot.delivered) ∧
    (∀ p : Published α, Slot.Carried p.value → Slot.delivered p = some p) ∧
    s.attach (Record.kind α) = .ok ⟨capacity, s.sequence⟩ ∧
    (∀ p ∈ u.traffic.published, p.sequence < s.sequence + 1) ∧
    (∀ l ∈ u.traffic.listeners, ∀ h ∈ l.heard, ∀ p ∈ h.answer, p.sequence < s.sequence + 1) ∧
    ∀ value : α, Record.encodedLength value ≤ capacity.toNat → ∃ s',
      s.publish ⟨capacity, s.sequence⟩ value =
        (.ok (s.sequence + 1), ⟨capacity, s.sequence + 1⟩, s') ∧
      ∀ sequence, s'.latest ⟨capacity, sequence⟩ =
        Slot.delivered ⟨s.sequence + 1, value⟩ := by
  intro s
  obtain ⟨rfl, -, hc⟩ := Shelf.create_ok hs
  have hk := Succession.run_kept (Succession.kept_quiet hc) hr hn (by omega)
  have hw : u.traffic.writing = none := by
    cases hw : u.traffic.writing
    case none   => rfl
    case some w => cases (hk.alive w hw).symm.trans ha
  have hs : s.Sound capacity u.traffic.published := hk.idle hw
  have hnumber : s.sequence.toNat + 1 < 2 ^ 64 := Nat.lt_of_le_of_lt (Nat.succ_le_succ hk.number) hb
  have hnext {q : UInt64} (hq : q.toNat ≤ s.sequence.toNat) : q < s.sequence + 1 := by
    rw [UInt64.lt_iff_toNat_lt, Slot.toNat_next hnumber]
    exact Nat.lt_succ_of_le hq
  exact ⟨hs.latest, fun _ => Slot.delivered_of_carried, hs.attach,
    fun p hp => hnext (hs.numbers p hp),
    fun l hl a ha p hp => hnext ((hk.listeners l hl).heard a ha p hp),
    fun value hf => hs.publish hn hnumber hf⟩

-- One detection is published and read. The next writer dies over its record, and the one after it
-- before the length of its record.
def twoDeaths : List (Succession.Action Detection) :=
  let stores (n : Nat) : List (Succession.Action Detection) := List.replicate n (.acts .store)
  let loads (n : Nat) : List (Succession.Action Detection) := List.replicate n (.acts (.load 0))
  List.flatten [
    [.acts .join, .acts (.begin ⟨[], ⟨5⟩, 7⟩)], stores 28,
    [.acts .finish, .acts (.ask 0)], loads 28,
    [.acts (.answer 0), .acts (.begin ⟨[], ⟨6⟩, 8⟩)], stores 15,
    [.dies, .succeeds, .acts (.begin ⟨[], ⟨7⟩, 9⟩)], stores 2,
    [.dies]]

theorem writers_recover_from_two_deaths : ∃ u : Succession (Slot.medium (α := Detection) 24),
    (Succession.quiet (Slot.empty (Record.kind Detection) 24)).run twoDeaths = some u ∧
    u.traffic.listeners.map (fun l => l.heard.map (·.answer)) = [[some ⟨1, ⟨[], ⟨5⟩, 7⟩⟩]] ∧
    (∀ n, (Slot.latest u.traffic.memory ⟨24, n⟩ : Option (Published Detection)) = none) ∧
    ∃ s', Slot.publish u.traffic.memory ⟨24, 3⟩ (⟨[], ⟨8⟩, 10⟩ : Detection) =
        (.ok 4, ⟨24, 4⟩, s') ∧
      ∀ n, s'.latest ⟨24, n⟩ = some (⟨4, ⟨[], ⟨8⟩, 10⟩⟩ : Published Detection) := by
  have hr : ((Succession.quiet (Slot.empty (Record.kind Detection) 24)).run twoDeaths).map
      (fun u : Succession (Slot.medium (α := Detection) 24) =>
        ([u.alive.toNat, u.traffic.published.length, (Slot.sequence u.traffic.memory).toNat,
          (Slot.generation u.traffic.memory).toNat % 2],
          u.traffic.listeners.map fun l => l.heard.map (·.answer))) =
      some ([0, 1, 3, 1], [[some ⟨1, ⟨[], ⟨5⟩, 7⟩⟩]]) := by
    decide +kernel
  obtain ⟨u, hu, h⟩ := Option.map_eq_some_iff.mp hr
  simp only [Prod.mk.injEq, List.cons.injEq, Bool.toNat_eq_zero] at h
  obtain ⟨⟨ha, hn, hs, hg, _⟩, hl⟩ := h
  have hs : Slot.sequence u.traffic.memory = 3 := UInt64.toNat_inj.mp hs
  have ⟨hlatest, hcarried, _, _, _, hpublish⟩ :=
    writers_recover (Shelf.create_slot (by decide)) hu ha (by rw [hn]; decide) (by decide)
  have ⟨s', hp, hnew⟩ := hpublish ⟨[], ⟨8⟩, 10⟩ (by decide)
  rw [hs] at hp hnew
  refine ⟨u, hu, hl, fun n => ?_, s', hp, fun n => ?_⟩
  · rw [hlatest, if_pos hg]
  · rw [hnew]
    exact hcarried ⟨4, ⟨[], ⟨8⟩, 10⟩⟩ rfl

end DayNight
