import DayNight.Decimal.Reading

namespace DayNight

structure JsonDecimal where
  negative : Bool
  significand : UInt64
  exponent : Int
  deriving DecidableEq, Repr

-- A number as it was written. `integer` holds the numbers without point and exponent that fit 64
-- bits, with or without sign; `-0` is no integer.
inductive JsonNumber
  | integer (n : Int)
  | decimal (d : JsonDecimal)
  deriving DecidableEq, Repr

namespace JsonDecimal

-- Appends digits to a number as long as it fits 64 bits. The second part of the answer is how many
-- digits are left over.
def append : Nat → List Char → Nat × Nat
  | n, [] => (n, 0)
  | n, c :: cs =>
    let next := 10 * n + Text.digitsValue [c]
    if next < UInt64.size then append next cs else (n, cs.length + 1)

-- The number with the given digits before and after the point. Digits that are left over count as
-- zeros before the point, and for nothing after it.
def ofDigits (negative : Bool) (whole part : List Char) (exponent : Int) : JsonDecimal :=
  let (n, zeros) := append 0 whole
  let (n, unread) := append n part
  ⟨negative, UInt64.ofNat n, exponent + zeros - (part.length - unread : Nat)⟩

def lastPower : Nat := 308

-- `x * 10 ^ exponent` by one multiplication or division, or by more divisions where the power is
-- too low for one; none where the value or the power is too high.
def scaled? (x : Float) (exponent : Int) : Option Float :=
  if exponent.natAbs ≤ lastPower then
    let power := Decimal.nearest 1 exponent.natAbs
    if 0 ≤ exponent then
      let y := x * power
      if y.isInf then none else some y
    else some (x / power)
  else if x == 0 then some x
  else if 0 ≤ exponent then none
  else scaled? (x / Decimal.nearest 1 lastPower) (exponent + lastPower)
termination_by (-exponent).toNat
decreasing_by simp only [lastPower] at *; omega

-- The digits count as long as they fit 64 bits, and the double nearest to them is then multiplied
-- or divided by a power of ten. Each step rounds.
def float? (d : JsonDecimal) : Option Float :=
  (scaled? d.significand.toFloat d.exponent).map fun x => if d.negative then -x else x

end JsonDecimal

def JsonNumber.float? : JsonNumber → Option Float
  | integer n =>
    let size := Decimal.nearest n.natAbs 0
    some (if n < 0 then -size else size)
  | decimal d => d.float?

end DayNight
