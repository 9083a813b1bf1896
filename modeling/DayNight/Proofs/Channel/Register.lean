import DayNight.Proofs.Channel.Traffic

namespace DayNight

open Medium

namespace Register

variable {α : Type}

-- The number of the publication that is stored.
def number (stored : Option (Published α)) : Nat := (stored.map (·.sequence.toNat)).getD 0

structure Quiet (stored : Option (Published α)) (ps : List (Published α)) : Prop where
  last   : stored = ps.head?
  number : number stored = ps.length

def Follows (stored : Option (Published α)) (all : List (Published α)) (least : Nat) :
    Option (Option (Published α)) → Prop
  | none => least ≤ number stored
  | some none => True
  | some (some p) => p ∈ all ∧ least ≤ p.sequence.toNat ∧ p.sequence.toNat ≤ number stored

variable {stored stored' : Option (Published α)} {p : Published α} {ps all : List (Published α)}
         {least : Nat} {reader : Option (Option (Published α))}

theorem Follows.moved (h : Follows stored all least reader) (hn : number stored ≤ number stored') :
    Follows stored' all least reader := by
  match reader with
  | none => exact Nat.le_trans h hn
  | some none => trivial
  | some (some p) => exact ⟨h.1, h.2.1, Nat.le_trans h.2.2 hn⟩

theorem Follows.more (h : Follows stored all least reader) :
    Follows stored (p :: all) least reader := by
  match reader with
  | none => exact h
  | some none => trivial
  | some (some q) => exact ⟨.tail _ h.1, h.2⟩

variable [Record α]

-- One publication at one go is what the register's own operation does.
theorem publish_eq_run {r : Register α} {value : α} {t : Traffic (medium r.capacity)}
    (hm : t.memory = r.stored) (hs : t.sequence = r.sequence) (hw : t.writing = none)
    (hf : (medium r.capacity).fits value) : (t.run (t.publication value)).map (fun t =>
      (.ok t.sequence, ⟨r.capacity, t.sequence, t.memory⟩)) = some (r.publish value) := by
  rw [Traffic.run_publication hw hf]
  obtain ⟨capacity, sequence, stored⟩ := r
  cases capacity
  case none => simp [publish, medium, hs]
  case some capacity =>
    have hle : ¬ capacity.toNat < Record.encodedLength value := by simpa [medium] using hf
    simp [publish, medium, hs, hle]

def Holds (capacity : Option UInt64) (stored : Option (Published α)) (ps : List (Published α)) :
    Option (Writing (medium (α := α) capacity)) → Prop
  | none => Quiet stored ps
  | some ⟨p, left⟩ => p.sequence.toNat = ps.length + 1 ∧
    (Quiet stored ps ∧ left = [p] ∨ stored = some p ∧ left = [])

variable {capacity : Option UInt64} {w : Option (Writing (medium (α := α) capacity))}

theorem Holds.le_number (h : Holds capacity stored ps w) : ps.length ≤ number stored := by
  match w with
  | none => exact Nat.le_of_eq h.number.symm
  | some ⟨p, left⟩ =>
    obtain ⟨hn, ⟨hq, _⟩ | ⟨rfl, _⟩⟩ := h
    case inl => exact Nat.le_of_eq hq.number.symm
    case inr =>
      have : number (some p) = ps.length + 1 := hn
      omega

theorem Holds.mem (h : Holds capacity (some p) ps w) :
    p ∈ (w.map (·.publication)).toList ++ ps := by
  have hquiet (hq : Quiet (some p) ps) : p ∈ ps := List.mem_of_mem_head? hq.last.symm
  match w with
  | none => simpa using hquiet h
  | some ⟨q, left⟩ =>
    obtain ⟨_, ⟨hq, _⟩ | ⟨hs, _⟩⟩ := h
    case inl => simp [hquiet hq]
    case inr => simp [Option.some.inj hs]

theorem Follows.load (h : Holds capacity stored ps w)
    (hf : Follows stored ((w.map (·.publication)).toList ++ ps) least reader) :
    Follows stored ((w.map (·.publication)).toList ++ ps) least (some (reader.getD stored)) := by
  match reader, stored with
  | some _, _ => exact hf
  | none, none => trivial
  | none, some p => exact ⟨h.mem, hf, Nat.le_refl _⟩

theorem Holds.store {store : Published α} {left : List (Published α)}
    (h : Holds capacity stored ps (some ⟨p, store :: left⟩)) :
    Holds capacity (some store) ps (some ⟨p, left⟩) ∧
    number stored ≤ number (some store) := by
  obtain ⟨hn, ⟨hq, hl⟩ | ⟨_, hl⟩⟩ := h
  case inr => cases hl
  case inl =>
    cases hl
    refine ⟨⟨hn, .inr ⟨rfl, rfl⟩⟩, ?_⟩
    rw [hq.number, number, Option.map_some, Option.getD_some, hn]
    exact Nat.le_succ _

theorem Holds.finish (h : Holds capacity stored ps (some ⟨p, []⟩)) :
    Holds capacity stored (p :: ps) none := by
  obtain ⟨hn, ⟨_, hl⟩ | ⟨rfl, _⟩⟩ := h
  case inl => cases hl
  case inr => exact ⟨rfl, hn⟩

-- What the register keeps, for any values.
def law (capacity : Option UInt64) : Law (medium (α := α) capacity) fun _ => True where
  version := number
  Holds   := Holds capacity
  Follows := Follows
  begin   := fun h _ _ _ hs => ⟨hs, .inl ⟨h, rfl⟩⟩
  store   := fun h => ⟨h.store.1, h.store.2, fun hf => hf.moved h.store.2⟩
  finish  := Holds.finish
  through := Holds.le_number
  reopen  := fun _ hs => by cases hs
  start   := Nat.le_refl _
  load    := fun h hf => hf.load h
  more    := Follows.more
  answer  := fun hf hr => by cases hr; exact hf

end Register

end DayNight
