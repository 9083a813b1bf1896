namespace DayNight

-- A sum or product of machine words that does not fit one. It is no answer to the caller: the
-- program breaks off.
inductive Overflow
  | add
  | multiply
  deriving DecidableEq, Repr

def Overflow.message : Overflow → String
  | add => "attempt to add with overflow"
  | multiply => "attempt to multiply with overflow"

namespace Word

def add (a b : UInt64) : Except Overflow UInt64 :=
  if a.toNat + b.toNat < UInt64.size then .ok (a + b) else .error .add

def multiply (a b : UInt64) : Except Overflow UInt64 :=
  if a.toNat * b.toNat < UInt64.size then .ok (a * b) else .error .multiply

variable {a b c : UInt64}

theorem add_eq_ok : add a b = .ok c ↔ c.toNat = a.toNat + b.toNat := by
  have hc := c.toNat_lt_size
  unfold add
  split
  case isTrue h =>
    rw [Except.ok.injEq, ← UInt64.toNat_inj, UInt64.toNat_add, Nat.mod_eq_of_lt h, eq_comm]
  case isFalse h =>
    exact ⟨nofun, fun he => absurd (he ▸ hc) h⟩

theorem multiply_eq_ok : multiply a b = .ok c ↔ c.toNat = a.toNat * b.toNat := by
  have hc := c.toNat_lt_size
  unfold multiply
  split
  case isTrue h =>
    rw [Except.ok.injEq, ← UInt64.toNat_inj, UInt64.toNat_mul, Nat.mod_eq_of_lt h, eq_comm]
  case isFalse h =>
    exact ⟨nofun, fun he => absurd (he ▸ hc) h⟩

theorem add_of_lt (h : a.toNat + b.toNat < UInt64.size) :
    add a b = .ok (a + b) ∧ (a + b).toNat = a.toNat + b.toNat := by
  have hs : (a + b).toNat = a.toNat + b.toNat := by
    rw [UInt64.toNat_add, Nat.mod_eq_of_lt h]
  exact ⟨add_eq_ok.mpr hs, hs⟩

theorem add_of_le (h : UInt64.size ≤ a.toNat + b.toNat) : add a b = .error .add :=
  if_neg (Nat.not_lt.mpr h)

theorem multiply_of_lt (h : a.toNat * b.toNat < UInt64.size) :
    multiply a b = .ok (a * b) ∧ (a * b).toNat = a.toNat * b.toNat := by
  have hs : (a * b).toNat = a.toNat * b.toNat := by
    rw [UInt64.toNat_mul, Nat.mod_eq_of_lt h]
  exact ⟨multiply_eq_ok.mpr hs, hs⟩

theorem multiply_of_le (h : UInt64.size ≤ a.toNat * b.toNat) : multiply a b = .error .multiply :=
  if_neg (Nat.not_lt.mpr h)

end Word

end DayNight
