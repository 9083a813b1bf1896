import DayNight.Channel.Traffic
import Mathlib.Algebra.Group.Nat.Defs

namespace DayNight.Medium

variable {α : Type} {m : Medium α}

namespace Traffic

-- The publications bear the numbers from one on.
def Numbered : List (Published α) → Prop
  | [] => True
  | p :: ps => p.sequence.toNat = ps.length + 1 ∧ Numbered ps

theorem Numbered.le_length {ps : List (Published α)} (h : Numbered ps) {p : Published α}
    (hp : p ∈ ps) : p.sequence.toNat ≤ ps.length := by
  induction ps
  case nil => simp at hp
  case cons q ps ih =>
    have ⟨hq, hps⟩ := h
    cases hp
    case head    => exact Nat.le_of_eq hq
    case tail hp => exact Nat.le_succ_of_le (ih hps hp)

-- What readers hear is true.
structure Faithful (t : Traffic m) : Prop where
  numbered : Numbered t.accepted
  -- Every value comes with its own number, out of one publication.
  exact    : ∀ l ∈ t.listeners, ∀ h ∈ l.heard, ∀ p, h.answer = some p → p ∈ t.accepted
  recent   : ∀ l ∈ t.listeners, ∀ h ∈ l.heard, ∀ p, h.answer = some p →
    ∀ q ∈ h.before, q.sequence ≤ p.sequence
  ordered  : ∀ l ∈ t.listeners, (l.heard.filterMap (·.answer)).Pairwise
    fun later earlier => earlier.sequence ≤ later.sequence

variable {t t' : Traffic m} {action : Action α} {actions : List (Action α)}

-- No publication is forgotten.
theorem step_accepted (h : t.step action = some t') : t.accepted <:+ t'.accepted := by
  cases action <;> simp only [step] at h
  case join => cases h; exact List.suffix_rfl
  case attach =>
    obtain ⟨_, _, rfl⟩ := Option.map_eq_some_iff.mp h
    exact List.suffix_rfl
  case reopen =>
    split at h
    case h_1 => cases h
    case h_2 =>
      obtain ⟨_, _, rfl⟩ := Option.map_eq_some_iff.mp h
      exact List.suffix_rfl
  case answer =>
    split at h
    case h_1 =>
      obtain ⟨_, _, rfl⟩ := Option.map_eq_some_iff.mp h
      exact List.suffix_rfl
    case h_2 => cases h
  case begin =>
    split at h
    case isTrue => cases h; exact List.suffix_rfl
    case isFalse =>
      split at h
      case h_1    => cases h
      case h_2 hw => cases h; simp [accepted, hw]
  all_goals
    split at h
    case h_1 hl => cases h; simp [accepted, setListener, *]
    case h_2    => cases h

theorem run_cons : t.run (action :: actions) = (t.step action).bind fun t => t.run actions := rfl

theorem run_accepted (h : t.run actions = some t') : t.accepted <:+ t'.accepted := by
  induction actions generalizing t
  case nil => cases h; exact List.suffix_rfl
  case cons action actions ih =>
    have ⟨s, hs, hr⟩ := Option.bind_eq_some_iff.mp (run_cons ▸ h)
    exact (step_accepted hs).trans (ih hr)

-- A publication at one go.
def publication (t : Traffic m) (value : α) : List (Action α) :=
  .begin value ::
    (List.replicate (m.stores t.memory (t.sequence + 1) value).length .store ++ [.finish])

theorem run_stores {memory : m.Memory} {sequence : UInt64} {p : Published α}
    {published : List (Published α)} {listeners : List (Listener m)} {stores : List m.Store}
    {actions : List (Action α)} :
    run ⟨memory, sequence, some ⟨p, stores⟩, published, listeners⟩
      (List.replicate stores.length .store ++ actions) =
    run ⟨stores.foldl m.apply memory, sequence, some ⟨p, []⟩, published, listeners⟩ actions := by
  induction stores generalizing memory
  case nil => rfl
  case cons store stores ih => exact ih

theorem run_publication {value : α} (hw : t.writing = none) (hf : m.fits value) :
    t.run (t.publication value) = some { t with
      memory := (m.stores t.memory (t.sequence + 1) value).foldl m.apply t.memory
      sequence := t.sequence + 1
      published := ⟨t.sequence + 1, value⟩ :: t.published } := by
  obtain ⟨memory, sequence, writing, published, listeners⟩ := t
  obtain rfl : writing = none := hw
  rw [publication, run_cons]
  simp only [step, hf, Bool.not_true, Bool.false_eq_true, if_false, Option.bind_some]
  exact run_stores

end Traffic

open Traffic

-- A memory `Holds` publications, and one more while it is being stored; `version` of them can be
-- seen. A reader `Follows` if its answer will be one of them, and none older than the given number.
structure Law (m : Medium α) (carried : α → Prop) where
  version : m.Memory → Nat
  Holds   : m.Memory → List (Published α) → Option (Writing m) → Prop
  Follows : m.Memory → List (Published α) → Nat → m.Reader → Prop
  begin {memory ps value next} : Holds memory ps none → ps.length + 1 < 2 ^ 63 →
    m.fits value → carried value → next.toNat = ps.length + 1 →
    Holds memory ps (some ⟨⟨next, value⟩, m.stores memory next value⟩)
  store {memory ps p store left} : Holds memory ps (some ⟨p, store :: left⟩) →
    Holds (m.apply memory store) ps (some ⟨p, left⟩) ∧
    version memory ≤ version (m.apply memory store) ∧
    ∀ {all least reader}, Follows memory all least reader →
      Follows (m.apply memory store) all least reader
  finish {memory ps p} : Holds memory ps (some ⟨p, []⟩) → Holds memory (p :: ps) none
  through {memory ps w} : Holds memory ps w → ps.length ≤ version memory
  reopen {memory ps next} : Holds memory ps none → m.reopen memory = some next →
    next.toNat = ps.length
  start {memory all} : Follows memory all (version memory) m.start
  load {memory ps w port least reader} : Holds memory ps w →
    Follows memory ((w.map (·.publication)).toList ++ ps) least reader →
    Follows memory ((w.map (·.publication)).toList ++ ps) least (m.load port memory reader)
  more {memory all least reader p} : Follows memory all least reader →
    Follows memory (p :: all) least reader
  answer {memory all least reader p} : Follows memory all least reader →
    m.result? reader = some (some p) →
    p ∈ all ∧ least ≤ p.sequence.toNat ∧ p.sequence.toNat ≤ version memory

namespace Law

variable {carried : α → Prop} (law : Law m carried)

-- How a listener stands to a memory and to all publications so far.
structure Hears (memory : m.Memory) (all : List (Published α)) (l : Listener m) : Prop where
  reading : ∀ before reader, l.reading = some (before, reader) → ∃ least,
    (∀ q ∈ before, q.sequence.toNat ≤ least) ∧
    (∀ h ∈ l.heard, ∀ p, h.answer = some p → p.sequence.toNat ≤ least) ∧
    law.Follows memory all least reader
  heard   : ∀ h ∈ l.heard, ∀ p, h.answer = some p →
    p ∈ all ∧ p.sequence.toNat ≤ law.version memory ∧ ∀ q ∈ h.before, q.sequence ≤ p.sequence
  ordered : (l.heard.filterMap (·.answer)).Pairwise
    fun later earlier => earlier.sequence ≤ later.sequence

namespace Hears

variable {law} {memory memory' : m.Memory} {all : List (Published α)} {l : Listener m}

theorem more (h : law.Hears memory all l) (p : Published α) : law.Hears memory (p :: all) l where
  reading := by
    intro before reader hr
    have ⟨least, hb, hh, hf⟩ := h.reading before reader hr
    exact ⟨least, hb, hh, law.more hf⟩
  heard   := by
    intro a ha q hq
    have ⟨hm, hv, hb⟩ := h.heard a ha q hq
    exact ⟨.tail _ hm, hv, hb⟩
  ordered := h.ordered

theorem store (h : law.Hears memory all l) (hv : law.version memory ≤ law.version memory')
    (hf : ∀ {all least reader}, law.Follows memory all least reader →
      law.Follows memory' all least reader) : law.Hears memory' all l where
  reading := by
    intro before reader hr
    have ⟨least, hb, hh, hl⟩ := h.reading before reader hr
    exact ⟨least, hb, hh, hf hl⟩
  heard   := by
    intro a ha q hq
    have ⟨hm, hq, hb⟩ := h.heard a ha q hq
    exact ⟨hm, Nat.le_trans hq hv, hb⟩
  ordered := h.ordered

theorem silent {port : m.Port} : law.Hears memory all ⟨port, none, []⟩ where
  reading := by simp
  heard   := by simp
  ordered := .nil

-- Whatever the reader has heard and whatever is through can be seen in the memory by now.
theorem ask {port : m.Port} {heard : List (Heard α)} {before : List (Published α)}
    (h : law.Hears memory all ⟨port, none, heard⟩)
    (hb : ∀ q ∈ before, q.sequence.toNat ≤ law.version memory) :
    law.Hears memory all ⟨port, some (before, m.start), heard⟩ where
  reading := by
    rintro _ _ ⟨⟩
    exact ⟨law.version memory, hb, fun a ha p hp => (h.heard a ha p hp).2.1, law.start⟩
  heard   := h.heard
  ordered := h.ordered

theorem load {port : m.Port} {heard : List (Heard α)} {before : List (Published α)}
    {reader next : m.Reader} (h : law.Hears memory all ⟨port, some (before, reader), heard⟩)
    (hf : ∀ {least}, law.Follows memory all least reader → law.Follows memory all least next) :
    law.Hears memory all ⟨port, some (before, next), heard⟩ where
  reading := by
    rintro _ _ ⟨⟩
    have ⟨least, hb, hh, hl⟩ := h.reading before reader rfl
    exact ⟨least, hb, hh, hf hl⟩
  heard   := h.heard
  ordered := h.ordered

theorem answer {port : m.Port} {heard : List (Heard α)} {before : List (Published α)}
    {reader : m.Reader} {answer : Option (Published α)}
    (h : law.Hears memory all ⟨port, some (before, reader), heard⟩)
    (hr : m.result? reader = some answer) :
    law.Hears memory all ⟨port, none, ⟨before, answer⟩ :: heard⟩ where
  reading := by simp
  heard   := by
    intro a ha p hp
    cases ha
    case tail ha => exact h.heard a ha p hp
    case head =>
      have ⟨least, hb, _, hf⟩ := h.reading before reader rfl
      have ⟨hm, hl, hv⟩ := law.answer hf (hr.trans (congrArg some hp))
      exact ⟨hm, hv, fun q hq => UInt64.le_iff_toNat_le.mpr (Nat.le_trans (hb q hq) hl)⟩
  ordered := by
    cases answer
    case none => exact h.ordered
    case some p =>
      refine .cons (fun q hq => ?_) h.ordered
      have ⟨a, ha, hq⟩ := List.mem_filterMap.mp hq
      have ⟨least, _, hh, hf⟩ := h.reading before reader rfl
      exact UInt64.le_iff_toNat_le.mpr (Nat.le_trans (hh a ha q hq) (law.answer hf hr).2.1)

end Hears

structure Invariant (t : Traffic m) : Prop where
  holds    : law.Holds t.memory t.published t.writing
  sequence : t.sequence.toNat = t.published.length
  numbered : Numbered t.accepted
  hears    : ∀ l ∈ t.listeners, law.Hears t.memory t.accepted l

namespace Invariant

variable {law} {t t' : Traffic m}

theorem next (h : law.Invariant t) (hn : t.published.length + 1 < 2 ^ 63) :
    (t.sequence + 1).toNat = t.published.length + 1 := by
  rw [UInt64.toNat_add, h.sequence]
  exact Nat.mod_eq_of_lt (by simp; omega)

theorem published_numbered (h : law.Invariant t) : Numbered t.published := by
  have hn := h.numbered
  cases hw : t.writing
  case none   => simpa [accepted, hw] using hn
  case some w =>
    have hn : Numbered (w.publication :: t.published) := by simpa [accepted, hw] using hn
    exact hn.2

theorem setListener (h : law.Invariant t) (i : Nat) {l : Listener m}
    (hl : law.Hears t.memory t.accepted l) : law.Invariant (t.setListener i l) where
  holds    := h.holds
  sequence := h.sequence
  numbered := h.numbered
  hears    := by
    intro k hk
    cases List.mem_or_eq_of_mem_set hk
    case inl hk => exact h.hears k hk
    case inr hk => exact hk ▸ hl

theorem addListener (h : law.Invariant t) (port : m.Port) :
    law.Invariant (t.addListener port) where
  holds    := h.holds
  sequence := h.sequence
  numbered := h.numbered
  hears    := by
    intro k hk
    cases List.mem_append.mp hk
    case inl hk => exact h.hears k hk
    case inr hk =>
      obtain rfl := List.mem_singleton.mp hk
      exact .silent

theorem begin (h : law.Invariant t) (hw : t.writing = none) {value : α} (hf : m.fits value)
    (hc : carried value) (hn : t.published.length + 1 < 2 ^ 63) :
    law.Invariant { t with writing := some ⟨⟨t.sequence + 1, value⟩,
      m.stores t.memory (t.sequence + 1) value⟩ } where
  holds    := law.begin (hw ▸ h.holds) hn hf hc (h.next hn)
  sequence := h.sequence
  numbered := by simpa [accepted] using ⟨h.next hn, h.published_numbered⟩
  hears    := by
    intro l hl
    simpa [accepted, hw] using (h.hears l hl).more ⟨t.sequence + 1, value⟩

theorem store (h : law.Invariant t) {p : Published α} {store : m.Store} {left : List m.Store}
    (hw : t.writing = some ⟨p, store :: left⟩) :
    law.Invariant { t with memory := m.apply t.memory store, writing := some ⟨p, left⟩ } := by
  have ⟨hh, hv, hf⟩ := law.store (hw ▸ h.holds)
  have ha : accepted { t with memory := m.apply t.memory store, writing := some ⟨p, left⟩ } =
      t.accepted := by simp [accepted, hw]
  exact ⟨hh, h.sequence, ha ▸ h.numbered, fun l hl => ha ▸ (h.hears l hl).store hv hf⟩

theorem finish (h : law.Invariant t) {p : Published α} (hw : t.writing = some ⟨p, []⟩) :
    law.Invariant { t with
      sequence := p.sequence, writing := none, published := p :: t.published } := by
  have ha : accepted { t with
      sequence := p.sequence, writing := none, published := p :: t.published } = t.accepted := by
    simp [accepted, hw]
  have hn : Numbered (p :: t.published) := by simpa [accepted, hw] using h.numbered
  exact ⟨law.finish (hw ▸ h.holds), hn.1, ha ▸ h.numbered, fun l hl => ha ▸ h.hears l hl⟩

theorem reopen (h : law.Invariant t) (hw : t.writing = none) {sequence : UInt64}
    (hs : m.reopen t.memory = some sequence) : law.Invariant { t with sequence := sequence } where
  holds    := h.holds
  sequence := law.reopen (hw ▸ h.holds) hs
  numbered := h.numbered
  hears    := h.hears

theorem listener (h : law.Invariant t) {i : Nat} {l : Listener m} (hl : t.listeners[i]? = some l) :
    law.Hears t.memory t.accepted l :=
  h.hears l (List.mem_of_getElem? hl)

-- Each action keeps the invariant, unless there were too many publications to count.
theorem step (h : law.Invariant t) {action : Action α} (hs : t.step action = some t')
    (hn : t'.accepted.length < 2 ^ 63) (hc : ∀ p ∈ t'.accepted, carried p.value) :
    law.Invariant t' := by
  cases action <;> simp only [Traffic.step] at hs
  case begin value =>
    split at hs
    case isTrue => exact Option.some.inj hs ▸ h
    case isFalse hf =>
      split at hs
      case h_1 => cases hs
      case h_2 hw =>
        cases hs
        exact h.begin hw (by simpa using hf) (hc _ (.head _)) (by simpa [accepted] using hn)
  case store =>
    split at hs
    case h_1 hw => cases hs; exact h.store hw
    case h_2    => cases hs
  case finish =>
    split at hs
    case h_1 hw => cases hs; exact h.finish hw
    case h_2    => cases hs
  case reopen =>
    split at hs
    case h_1 => cases hs
    case h_2 hw =>
      obtain ⟨_, hr, rfl⟩ := Option.map_eq_some_iff.mp hs
      exact h.reopen hw hr
  case join => cases hs; exact h.addListener _
  case attach =>
    obtain ⟨_, _, rfl⟩ := Option.map_eq_some_iff.mp hs
    exact h.addListener _
  case ask i =>
    split at hs
    case h_1 hl =>
      cases hs
      refine h.setListener i ((h.listener hl).ask fun q hq => ?_)
      exact Nat.le_trans (h.published_numbered.le_length hq) (law.through h.holds)
    case h_2 => cases hs
  case load i =>
    split at hs
    case h_1 hl =>
      cases hs
      exact h.setListener i ((h.listener hl).load (law.load h.holds))
    case h_2 => cases hs
  case answer i =>
    split at hs
    case h_1 hl =>
      obtain ⟨_, hr, rfl⟩ := Option.map_eq_some_iff.mp hs
      exact h.setListener i ((h.listener hl).answer hr)
    case h_2 => cases hs

theorem run (h : law.Invariant t) {actions : List (Action α)} (hr : t.run actions = some t')
    (hn : t'.accepted.length < 2 ^ 63) (hc : ∀ p ∈ t'.accepted, carried p.value) :
    law.Invariant t' := by
  induction actions generalizing t
  case nil => cases hr; exact h
  case cons action actions ih =>
    have ⟨s, hs, hr⟩ := Option.bind_eq_some_iff.mp (run_cons ▸ hr)
    have ha := run_accepted hr
    have hs := h.step hs (Nat.lt_of_le_of_lt ha.length_le hn) fun p hp => hc p (ha.mem hp)
    exact ih hs hr

theorem quiet {memory : m.Memory} (h : law.Holds memory [] none) :
    law.Invariant (.quiet memory) where
  holds    := h
  sequence := rfl
  numbered := trivial
  hears    := by simp [Traffic.quiet]

theorem faithful (h : law.Invariant t) : Faithful t where
  numbered := h.numbered
  exact    := fun l hl a ha p hp => ((h.hears l hl).heard a ha p hp).1
  recent   := fun l hl a ha p hp => ((h.hears l hl).heard a ha p hp).2.2
  ordered  := fun l hl => (h.hears l hl).ordered

end Invariant

-- A lawful medium that has nothing to say yet is faithful whatever happens to it.
theorem faithful {memory : m.Memory} (h : law.Holds memory [] none) {t : Traffic m}
    {actions : List (Action α)} (hr : (Traffic.quiet memory).run actions = some t)
    (hn : t.accepted.length < 2 ^ 63) (hc : ∀ p ∈ t.accepted, carried p.value) : t.Faithful :=
  ((Invariant.quiet h).run hr hn hc).faithful

end Law

end DayNight.Medium
