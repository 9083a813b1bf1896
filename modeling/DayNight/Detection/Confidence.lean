namespace DayNight

structure Confidence where
  bits : UInt32
  deriving DecidableEq, Repr, Inhabited

-- The place of the number in the total order of single-precision numbers: negative not-a-numbers,
-- then the numbers by size with `-0` before `0`, then positive not-a-numbers.
def Confidence.rank (c : Confidence) : Int :=
  if c.bits.toNat < 0x80000000 then c.bits.toNat else 0x7FFFFFFF - (c.bits.toNat : Int)

namespace Confidence

-- `n / 2 ^ shift` to the nearest whole number; a half goes to the even neighbour.
def roundHalfEven (n shift : Nat) : Nat :=
  let unit := 1 <<< shift
  let whole := n / unit
  let twice := 2 * (n % unit)
  if unit < twice ∨ (twice = unit ∧ whole % 2 = 1) then whole + 1 else whole

-- The nearest single-precision number to the double with the given bits. Doubles that are too large
-- become infinite; what is no number keeps its sign and the first bits of its fraction.
def ofDouble (bits : UInt64) : Confidence :=
  let sign := bits.toNat / 0x8000000000000000 * 0x80000000
  let field := bits.toNat / 0x10000000000000 % 0x800
  let fraction := bits.toNat % 0x10000000000000
  let size :=
    if field = 2047 then
      if fraction = 0 then 0x7F800000 else 0x7FC00000 + fraction / 0x20000000 % 0x400000
    else
      let mantissa := if field = 0 then fraction else 0x10000000000000 + fraction
      -- The last place has the exponent `max (field - 1046) (-149)`.
      let place := max field 897 - 897
      let shift := if field < 897 then 926 - max field 1 else 29
      min (place * 0x800000 + roundHalfEven mantissa shift) 0x7F800000
  ⟨UInt32.ofNat (sign + size)⟩

def isNan (c : Confidence) : Bool := 0x7F800000 < c.bits.toNat % 0x80000000

end Confidence

end DayNight
