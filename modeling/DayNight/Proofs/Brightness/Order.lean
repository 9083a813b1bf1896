import DayNight.Brightness
import Mathlib.Data.Int.Order.Basic
import Mathlib.Data.Prod.Lex
import Mathlib.Order.Compare

namespace DayNight.Brightness

open Float.Model

-- Sign, exponent and mantissa. Infinite values come before and after all others.
abbrev Rank := ℤ ×ₗ ℤ ×ₗ ℤ

def rankOf : UnpackedFloat → Option Rank
  | .notANumber => none
  | .infinity .negative => some (toLex (-2, toLex (0, 0)))
  | .finite .negative m e _ => some (toLex (-1, toLex (-e, -(m : ℤ))))
  | .zero _ => some (toLex (0, toLex (0, 0)))
  | .finite .positive m e _ => some (toLex (1, toLex (e, m)))
  | .infinity .positive => some (toLex (2, toLex (0, 0)))

def rank (a : Float) : Option Rank := rankOf a.toModel.unpack

theorem compare_neg (a b : ℤ) : compare (-a) (-b) = compare b a := by
  simp only [compare, compareOfLessAndEq, Int.neg_lt_neg_iff, Int.neg_inj, eq_comm]

theorem compare_natCast (m n : ℕ) : compare (m : ℤ) n = compare m n := by
  simp only [compare, compareOfLessAndEq, Int.ofNat_lt, Int.ofNat_inj]

theorem compare_rank (s e f m n : ℤ) :
    compare (toLex (s, toLex (e, m)) : Rank) (toLex (s, toLex (f, n))) =
      (compare e f).then (compare m n) := by
  simp [Prod.Lex.compare_def, compareLex, compareOn]

theorem compare_eq (u v : UnpackedFloat) :
    u.compare v = (rankOf u).bind fun x => (rankOf v).map (compare x) := by
  rcases u with (_ | _) | _ | _ | ⟨_ | _, m, e, _⟩
  all_goals rcases v with (_ | _) | _ | _ | ⟨_ | _, n, f, _⟩
  -- Below zero, the larger magnitude comes first.
  case finite.negative.finite.negative =>
    have h := compare_rank (-1) (-e) (-f) (-m) (-n)
    rw [compare_neg, compare_neg, compare_natCast, ← Int.compare_swap, ← Nat.compare_swap,
      ← Ordering.swap_then] at h
    exact congrArg some h.symm
  case finite.positive.finite.positive =>
    have h := compare_rank 1 e f m n
    rw [compare_natCast] at h
    exact congrArg some h.symm
  all_goals rfl

section

variable {a b c : Float}

theorem lt_iff : a < b ↔ ∃ x ∈ rank a, ∃ y ∈ rank b, x < y := by
  have h : a < b ↔ (rank a).bind (fun x => (rank b).map (compare x)) = some .lt := by
    simp [LT.lt, Float.lt, Float.Model.lt, UnpackedFloat.lt, compare_eq, rank]
  rw [h]
  cases rank a <;> cases rank b <;> simp [-Lex.exists, -Prod.exists, compare_lt_iff_lt]

theorem le_iff : a ≤ b ↔ ∃ x ∈ rank a, ∃ y ∈ rank b, x ≤ y := by
  have h : a ≤ b ↔ ((rank a).bind fun x => (rank b).map (compare x)).any (·.isLE) := by
    simp [LE.le, Float.le, Float.Model.le, UnpackedFloat.le, compare_eq, rank]
  rw [h]
  cases rank a <;> cases rank b
  all_goals simp [-Lex.exists, -Prod.exists, ← compare_le_iff_le, Ordering.isLE_iff_ne_gt]

theorem beq_iff : a == b ↔ ∃ x ∈ rank a, x ∈ rank b := by
  have h : a == b ↔ (rank a).bind (fun x => (rank b).map (compare x)) = some .eq := by
    rw [rank, rank, ← compare_eq, ← beq_iff_eq (a := UnpackedFloat.compare ..)]
    rfl
  rw [h]
  cases rank a <;> cases rank b <;> simp [-Lex.exists, -Prod.exists, compare_eq_iff_eq]
  exact eq_comm

theorem trans (hab : a < b) (hbc : b < c) : a < c := by
  have ⟨x, ha, y, hb, hxy⟩ := lt_iff.mp hab
  have ⟨y', hb', z, hc, hyz⟩ := lt_iff.mp hbc
  cases Option.mem_unique hb hb'
  exact lt_iff.mpr ⟨x, ha, z, hc, hxy.trans hyz⟩

theorem not_lt_of_le (h : a ≤ b) : ¬ b < a := by
  have ⟨x, ha, y, hb, hxy⟩ := le_iff.mp h
  intro hba
  have ⟨y', hb', x', ha', hyx⟩ := lt_iff.mp hba
  cases Option.mem_unique ha ha'
  cases Option.mem_unique hb hb'
  exact hxy.not_gt hyx

theorem not_beq_of_lt (h : a < b) : ¬ a == b := by
  have ⟨x, ha, y, hb, hxy⟩ := lt_iff.mp h
  intro hab
  have ⟨z, ha', hb'⟩ := beq_iff.mp hab
  cases Option.mem_unique ha ha'
  cases Option.mem_unique hb hb'
  exact hxy.false

theorem exists_rank (h : a.isFinite) : ∃ x, x ∈ rank a := by
  have hu : a.toModel.unpack.isFinite := h
  unfold rank
  generalize a.toModel.unpack = u at hu
  rcases u with _ | _ | _ | ⟨_ | _, _, _, _⟩
  case infinity   => cases hu
  case notANumber => cases hu
  all_goals exact ⟨_, rfl⟩

theorem lt_of_not_le (ha : a.isFinite) (hb : b.isFinite) (h : ¬ b ≤ a) : a < b := by
  have ⟨x, ha⟩ := exists_rank ha
  have ⟨y, hb⟩ := exists_rank hb
  refine lt_iff.mpr ⟨x, ha, y, hb, lt_of_not_ge fun hyx => ?_⟩
  exact h (le_iff.mpr ⟨y, hb, x, ha, hyx⟩)

end

end DayNight.Brightness
