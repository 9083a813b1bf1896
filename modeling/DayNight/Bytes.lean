namespace DayNight

abbrev Bytes := List UInt8

namespace Bytes

-- The lowest `width` bytes of `n`, the least significant one first; higher ones are dropped.
def ofNat : Nat → Nat → Bytes
  | 0, _ => []
  | width + 1, n => UInt8.ofNat (n % 256) :: ofNat width (n / 256)

def toNat : Bytes → Nat
  | [] => 0
  | b :: bs => b.toNat + 256 * toNat bs

def slice (bs : Bytes) (offset width : Nat) : Bytes := (bs.drop offset).take width

def number (bs : Bytes) (offset width : Nat) : Nat := (bs.slice offset width).toNat

-- `bs` with the bytes from `offset` on replaced by `new`, as far as both reach.
def overwrite (bs : Bytes) (offset : Nat) (new : Bytes) : Bytes :=
  bs.take offset ++ (new.take (bs.length - offset)) ++ bs.drop (offset + new.length)

@[simp] theorem length_ofNat (width n : Nat) : (ofNat width n).length = width := by
  induction width generalizing n with
  | zero => rfl
  | succ width ih => simp [ofNat, ih]

theorem ofNat_toNat (bs : Bytes) : ofNat bs.length (toNat bs) = bs := by
  induction bs with
  | nil => rfl
  | cons b bs ih =>
    have hb : b.toNat < 256 := b.toNat_lt
    rw [List.length_cons, ofNat, toNat, Nat.add_mul_mod_self_left, Nat.mod_eq_of_lt hb,
      UInt8.ofNat_toNat, Nat.add_mul_div_left _ _ (by decide), Nat.div_eq_of_lt hb,
      Nat.zero_add, ih]

end Bytes

end DayNight
