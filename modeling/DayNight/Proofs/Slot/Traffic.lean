import DayNight.Proofs.Channel.Traffic
import DayNight.Proofs.Record.RoundTrip
import DayNight.Proofs.Slot.Stores
import DayNight.Slot.Traffic

namespace DayNight.Slot

open Medium

section

variable {α : Type} [Record α] {s s' : Slot} {p : Published α} {ps all : List (Published α)}

-- A value that comes back from its bytes as it was.
def Carried (value : α) : Prop := Record.decode (Record.encode value) = .ok value

-- How many publications there have been.
def rounds (s : Slot) : Nat := s.generation.toNat / 2

-- Whoever reads the slot undisturbed gets this publication.
structure Shows (s : Slot) (p : Published α) : Prop where
  sequence : s.sequence = p.sequence
  length   : s.recordLength.toNat = (Record.encode p.value).length
  record   : s.found (Record.encode p.value).length = Record.encode p.value
  carried  : Carried p.value

-- Nobody writes, and the publications are through.
structure Quiet (s : Slot) (ps : List (Published α)) : Prop where
  generation : s.generation.toNat = 2 * ps.length
  sequence   : s.sequence.toNat = ps.length
  shows      : ∀ p ∈ ps.head?, s.Shows p

-- What is left of a publication that has begun: at the very end the generation becomes `n`.
inductive Rest (n : Nat) : List Store → Prop
  | last {g} : g.toNat = n → Rest n [.generation g]
  | data {store left} : (∀ g, store ≠ .generation g) → Rest n left → Rest n (store :: left)

-- How far a publication is, after the others.
inductive Stage (s : Slot) (ps : List (Published α)) : List Store → Prop
  | ready {g left} : s.Quiet ps → g.toNat = 2 * ps.length + 1 → Rest (2 * ps.length + 2) left →
    Stage s ps (.generation g :: left)
  | busy {left} : s.generation.toNat = 2 * ps.length + 1 → Rest (2 * ps.length + 2) left →
    Stage s ps left
  | through : s.generation.toNat = 2 * ps.length + 2 → Stage s ps []

-- The generation goes up, and does not become even again without having gone up.
def Moves (s s' : Slot) : Prop :=
  s.generation.toNat ≤ s'.generation.toNat ∧
  (s'.generation.toNat % 2 = 1 ∨ s.generation.toNat < s'.generation.toNat)

namespace Stage

variable {first : Store} {left : List Store}

theorem store (h : s.Stage ps (first :: left)) : (s.apply first).Stage ps left := by
  cases h
  case ready g _ hg hr => exact .busy hg hr
  case busy hb hr =>
    cases hr
    case last g hg => exact .through hg
    case data hn hr => exact .busy ((apply_generation_of_ne hn).symm ▸ hb) hr

theorem moves (h : s.Stage ps (first :: left)) : s.Moves (s.apply first) := by
  cases h
  case ready g hq hg _ =>
    have := hq.generation
    have : (s.apply (.generation g)).generation.toNat = 2 * ps.length + 1 := hg
    constructor <;> omega
  case busy hb hr =>
    cases hr
    case last g hg =>
      have : (s.apply (.generation g)).generation.toNat = 2 * ps.length + 2 := hg
      constructor <;> omega
    case data hn _ =>
      rw [Moves, apply_generation_of_ne hn]
      constructor <;> omega

theorem le_rounds (h : s.Stage ps left) : ps.length ≤ s.rounds := by
  rw [rounds]
  cases h
  case ready hq _ _ => rw [hq.generation]; omega
  case busy hb _    => omega
  case through ht   => omega

end Stage

-- A publication under way, after the others.
structure Pending (s : Slot) (ps : List (Published α)) (p : Published α) (left : List Store) :
    Prop where
  stage  : s.Stage ps left
  number : p.sequence.toNat = ps.length + 1
  shows  : (s.applyAll left).Shows p

-- A slot with room for the records that it takes, which readers find in order.
def Holds (capacity : UInt64) (s : Slot) (ps : List (Published α)) :
    Option (Writing (medium (α := α) capacity)) → Prop
  | none   => capacity.toNat ≤ s.record.size ∧ s.Quiet ps
  | some w => capacity.toNat ≤ s.record.size ∧ s.Pending ps w.publication w.left

-- A reader has seen an even generation.
structure Saw (s : Slot) (least : Nat) (before : UInt64) : Prop where
  even  : before.toNat % 2 = 0
  some  : before.toNat ≠ 0
  least : 2 * least ≤ before.toNat
  past  : before.toNat ≤ s.generation.toNat

-- What a reader has gathered is from the slot as it is now, unless the generation has changed.
def Follows (s : Slot) (all : List (Published α)) (least : Nat) : Reader → Prop
  | .starting _ => least ≤ s.rounds
  | .sawGeneration _ before => s.Saw least before
  | .sawSequence _ before sequence =>
    s.Saw least before ∧ (s.generation = before → sequence = s.sequence)
  | .copying _ before sequence left copied => s.Saw least before ∧
    (s.generation = before → sequence = s.sequence ∧
      copied.length + left = s.recordLength.toNat ∧ copied.reverse = s.found copied.length)
  | .finished none => True
  | .finished (some copy) => ∃ p ∈ all, copy = ⟨p.sequence, Record.encode p.value⟩ ∧
    Carried p.value ∧ least ≤ p.sequence.toNat ∧ p.sequence.toNat ≤ s.rounds

theorem Moves.rounds (h : s.Moves s') : s.rounds ≤ s'.rounds := Nat.div_le_div_right h.1

namespace Saw

variable {least : Nat} {before : UInt64}

theorem moved (h : s.Saw least before) (hm : s.Moves s') : s'.Saw least before :=
  { h with past := Nat.le_trans h.past hm.1 }

-- Once the generation has moved on, it is never again the one that was seen.
theorem ne_of_moves (h : s.Saw least before) (hm : s.Moves s') : s'.generation ≠ before := by
  rintro rfl
  have := h.even
  have := h.past
  have := hm.2
  omega

theorem le_rounds (h : s.Saw least before) : least ≤ s.rounds := by
  have := h.least
  have := h.past
  rw [rounds]
  omega

end Saw

theorem Follows.moved {least : Nat} {reader : Reader} (h : s.Follows all least reader)
    (hm : s.Moves s') : s'.Follows all least reader := by
  cases reader
  case starting => exact Nat.le_trans h hm.rounds
  case sawGeneration => exact Saw.moved h hm
  case sawSequence => exact ⟨h.1.moved hm, fun hg => absurd hg (h.1.ne_of_moves hm)⟩
  case copying => exact ⟨h.1.moved hm, fun hg => absurd hg (h.1.ne_of_moves hm)⟩
  case finished copy =>
    cases copy
    case none => trivial
    case some copy =>
      have ⟨p, hp, hc, hv, hl, hr⟩ := h
      exact ⟨p, hp, hc, hv, hl, Nat.le_trans hr hm.rounds⟩

theorem Follows.more {least : Nat} {reader : Reader} (h : s.Follows all least reader) :
    s.Follows (p :: all) least reader := by
  cases reader
  case finished copy =>
    cases copy
    case none => trivial
    case some copy =>
      have ⟨q, hq, h⟩ := h
      exact ⟨q, .tail _ hq, h⟩
  all_goals exact h

section

variable {capacity : UInt64} {w : Option (Writing (medium (α := α) capacity))}

theorem Holds.room (h : Holds capacity s ps w) : capacity.toNat ≤ s.record.size := by
  cases w
  case none => exact h.1
  case some => exact h.1

theorem Holds.le_rounds (h : Holds capacity s ps w) : ps.length ≤ s.rounds := by
  cases w
  case none =>
    rw [rounds, h.2.generation]
    omega
  case some => exact h.2.stage.le_rounds

-- Under an even generation the last publication can be read.
theorem Holds.shows (h : Holds capacity s ps w) (he : s.generation.toNat % 2 = 0)
    (h0 : s.generation.toNat ≠ 0) :
    ∃ p ∈ (w.map (·.publication)).toList ++ ps, s.Shows p ∧ p.sequence.toNat = s.rounds := by
  have hquiet (hq : s.Quiet ps) : ∃ p ∈ ps, s.Shows p ∧ p.sequence.toNat = s.rounds := by
    have hg := hq.generation
    cases ps
    case nil => exact absurd hg h0
    case cons p ps =>
      have hs := hq.shows p rfl
      refine ⟨p, .head _, hs, ?_⟩
      rw [← hs.sequence, hq.sequence, rounds, hg]
      omega
  cases w
  case none => simpa using hquiet h.2
  case some w =>
    obtain ⟨p, left⟩ := w
    have ⟨_, hstage, hn, hs⟩ := h
    cases hstage
    case ready hq _ _ =>
      have ⟨q, hq, h⟩ := hquiet hq
      exact ⟨q, by simp [hq], h⟩
    case busy hb _ => omega
    case through ht =>
      refine ⟨p, by simp, hs, ?_⟩
      rw [hn, rounds, ht]
      omega

namespace Follows

variable {least attempt : Nat} {port before sequence : UInt64} {copied : Bytes}

theorem start (h : s.Follows all least (.starting attempt)) (h0 : s.generation ≠ 0)
    (h1 : s.generation % 2 ≠ 1) : s.Follows all least (.sawGeneration attempt s.generation) where
  even  := by
    have : s.generation.toNat % 2 ≠ 1 := fun h => h1 (UInt64.toNat_inj.mp h)
    omega
  some  := fun h => h0 (UInt64.toNat_inj.mp h)
  least := by
    have : least ≤ s.generation.toNat / 2 := h
    omega
  past  := Nat.le_refl _

theorem byte {left : Nat}
    (h : s.Follows all least (.copying attempt before sequence (left + 1) copied)) :
    s.Follows all least
      (.copying attempt before sequence left (s.record[copied.length]?.getD 0 :: copied)) := by
  refine ⟨h.1, fun hg => ?_⟩
  have ⟨hs, hn, hc⟩ := h.2 hg
  refine ⟨hs, by simp only [List.length_cons]; omega, ?_⟩
  rw [List.reverse_cons, hc, List.length_cons, found_succ]

-- The reader has the whole record, and the generation is the one that it saw first.
theorem finish (h : Holds capacity s ps w) (hg : s.generation = before)
    (hf : s.Follows ((w.map (·.publication)).toList ++ ps) least
      (.copying attempt before sequence 0 copied)) :
    s.Follows ((w.map (·.publication)).toList ++ ps) least
      (.finished (some ⟨sequence, copied.reverse⟩)) := by
  have ⟨hsaw, hf⟩ := hf
  have ⟨hsequence, hlength, hcopied⟩ := hf hg
  subst hg
  have ⟨p, hp, hs, hn⟩ := h.shows hsaw.even hsaw.some
  refine ⟨p, hp, ?_, hs.carried, hn ▸ hsaw.le_rounds, Nat.le_of_eq hn⟩
  have hlength : copied.length = (Record.encode p.value).length := hlength.trans hs.length
  rw [hsequence, hs.sequence, hcopied, hlength, hs.record]

theorem step (h : Holds capacity s ps w) {reader : Reader}
    (hf : s.Follows ((w.map (·.publication)).toList ++ ps) least reader) :
    s.Follows ((w.map (·.publication)).toList ++ ps) least (reader.step port s) := by
  cases reader
  case starting attempt =>
    simp only [Reader.step]
    split
    case isTrue => trivial
    case isFalse =>
      split
      case isTrue => trivial
      case isFalse h0 =>
        split
        case isTrue     => exact hf
        case isFalse h1 => exact start hf h0 h1
  case sawGeneration => exact ⟨hf, fun _ => rfl⟩
  case sawSequence =>
    simp only [Reader.step]
    split
    case isTrue  => exact hf.1.le_rounds
    case isFalse => exact ⟨hf.1, fun hg => ⟨hf.2 hg, by simp, rfl⟩⟩
  case copying left copied =>
    cases left
    case succ => exact hf.byte
    case zero =>
      simp only [Reader.step]
      split
      case isTrue hg => exact finish h hg hf
      case isFalse   => exact hf.1.le_rounds
  case finished => exact hf

end Follows

end

end

-- The stores of a record, after which the generation becomes even again.
theorem rest_publication {g : UInt64} {n : Nat} (hg : g.toNat = n) {sequence length : UInt64}
    {bytes : Bytes} : Rest n
      (.sequence sequence :: .recordLength length :: recordStores 0 bytes ++ [.generation g]) := by
  refine .data (fun _ => Store.noConfusion) (.data (fun _ => Store.noConfusion) ?_)
  generalize hs : recordStores 0 bytes = stores
  have hn : ∀ store ∈ stores, ∀ g, store ≠ .generation g := fun _ hm =>
    ne_generation_of_mem_recordStores (hs ▸ hm)
  clear hs
  induction stores
  case nil => exact .last hg
  case cons store stores ih =>
    exact .data (hn store (.head _)) (ih fun st hm => hn st (.tail _ hm))

section

variable {α : Type} [Record α] {capacity : UInt64} {s : Slot} {ps : List (Published α)}

-- One publication at one go is what the slot's own operation does.
theorem publish_eq_run {handle : Handle} {value : α} {t : Traffic (medium handle.capacity)}
    (hm : t.memory = s) (hs : t.sequence = handle.sequence) (hw : t.writing = none)
    (hf : (medium handle.capacity).fits value) : (t.run (t.publication value)).map (fun t =>
      (.ok t.sequence, ⟨handle.capacity, t.sequence⟩, t.memory)) =
      some (s.publish handle value) := by
  rw [Traffic.run_publication hw hf]
  have hle : ¬ handle.capacity.toNat < Record.encodedLength value := by simpa [medium] using hf
  simp only [publish, hle, if_false]
  rw [Option.map_some, hm, hs]
  rfl

theorem Holds.begin [Record.Lawful α] (h : Holds capacity s ps none) {value : α} {next : UInt64}
    (hn : ps.length + 1 < 2 ^ 63) (hf : Record.encodedLength value ≤ capacity.toNat)
    (hc : Carried value) (hs : next.toNat = ps.length + 1) : Holds capacity s ps
      (some ⟨⟨next, value⟩, publicationStores s.generation next (Record.encode value)⟩) := by
  have ⟨hroom, hquiet⟩ := h
  have hlength : (Record.encode value).length ≤ s.record.size :=
    Nat.le_trans (Record.Lawful.length_encode value ▸ hf) hroom
  have hbusy := busy_toNat hquiet.generation
  have hlast : (busy s.generation + 1).toNat = 2 * ps.length + 2 := by
    rw [UInt64.toNat_add, hbusy]
    exact Nat.mod_eq_of_lt (by simp; omega)
  have hcount : (UInt64.ofNat (Record.encode value).length).toNat = (Record.encode value).length :=
    Nat.mod_eq_of_lt (Nat.lt_of_le_of_lt (Record.Lawful.length_encode value ▸ hf) capacity.toNat_lt)
  exact ⟨hroom, .ready hquiet hbusy (rest_publication hlast), hs, {
    sequence := by rw [applyAll_publicationStores hlength]
    length   := by rw [applyAll_publicationStores hlength]; exact hcount
    record   := found_publication hlength
    carried  := hc }⟩

theorem Holds.store {p : Published α} {store : Store} {left : List Store}
    (h : Holds capacity s ps (some ⟨p, store :: left⟩)) :
    Holds capacity (s.apply store) ps (some ⟨p, left⟩) :=
  ⟨(apply_record_size (s := s)).symm ▸ h.1, h.2.stage.store, h.2.number, h.2.shows⟩

theorem Holds.finish {p : Published α} (h : Holds capacity s ps (some ⟨p, []⟩)) :
    Holds capacity s (p :: ps) none := by
  have ⟨hroom, hstage, hn, hs⟩ := h
  cases hstage
  case busy hr => cases hr
  case through ht => exact ⟨hroom, ht, hs.sequence ▸ hn, by rintro _ ⟨⟩; exact hs⟩

theorem attach_sequence {kind : UInt16} {next : UInt64}
    (h : (s.attach kind).toOption.map (·.sequence) = some next) : next = s.sequence := by
  obtain ⟨handle, ha, rfl⟩ := Option.map_eq_some_iff.mp h
  simp only [attach] at ha
  repeat' split at ha
  case isFalse => cases ha; rfl
  all_goals cases ha

theorem Follows.answer {all : List (Published α)} {least : Nat} {reader : Reader} {p : Published α}
    (h : s.Follows all least reader) (hr : reader.result? = some (some p)) :
    p ∈ all ∧ least ≤ p.sequence.toNat ∧ p.sequence.toNat ≤ s.rounds := by
  cases reader
  case finished copy =>
    cases copy
    case none => cases hr
    case some copy =>
      obtain ⟨q, hq, rfl, hv, h⟩ := h
      have hd : Copy.decode? ⟨q.sequence, Record.encode q.value⟩ = some q := by
        rw [Copy.decode?, hv]
        rfl
      obtain rfl : q = p := by simpa [Reader.result?, hd] using hr
      exact ⟨hq, h⟩
  all_goals cases hr

-- What the shared slot keeps, for values that come back from their bytes as they were.
def law [Record.Lawful α] (capacity : UInt64) : Law (medium (α := α) capacity) Carried where
  version := rounds
  Holds   := Holds capacity
  Follows := Follows
  begin   := fun h hn hf hc hs => h.begin hn (by simpa [medium] using hf) hc hs
  store   := fun h => ⟨h.store, h.2.stage.moves.rounds, fun hf => hf.moved h.2.stage.moves⟩
  finish  := Holds.finish
  through := Holds.le_rounds
  reopen  := fun h hs => attach_sequence hs ▸ h.2.sequence
  start   := Nat.le_refl _
  load    := fun h hf => hf.step h
  more    := Follows.more
  answer  := Follows.answer

end

end DayNight.Slot
