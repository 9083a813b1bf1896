import DayNight.Bytes
import Mathlib.Algebra.Group.Nat.Defs

namespace DayNight.Bytes

theorem toNat_ofNat (width n : Nat) : toNat (ofNat width n) = n % 256 ^ width := by
  induction width generalizing n with
  | zero => simp [ofNat, toNat, Nat.mod_one]
  | succ width ih =>
    calc toNat (ofNat (width + 1) n)
        = n % 256 + 256 * (n / 256 % 256 ^ width) := by simp [ofNat, toNat, ih]
      _ = n % 256 ^ (width + 1) := by rw [Nat.pow_succ', Nat.mod_mul]

theorem toNat_lt (bs : Bytes) : toNat bs < 256 ^ bs.length := by
  induction bs with
  | nil => simp [toNat]
  | cons b bs ih =>
    have hb : b.toNat < 256 := b.toNat_lt
    rw [toNat, List.length_cons, Nat.pow_succ]
    omega

end DayNight.Bytes
