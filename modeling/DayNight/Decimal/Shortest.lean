namespace DayNight.Decimal

structure Digits where
  significand : Nat
  exponent : Int
  deriving DecidableEq, Repr

-- A positive finite double as `mantissa * 2 ^ exponent`. `edge` marks the doubles whose lower
-- neighbour is half as far away as the upper one.
structure Binary where
  mantissa : Nat
  exponent : Int
  edge : Bool
  deriving DecidableEq, Repr

def Binary.ofBits (bits : UInt64) : Binary :=
  let field : Nat := bits.toNat / 0x10000000000000 % 0x800
  let fraction : Nat := bits.toNat % 0x10000000000000
  if field = 0 then ⟨fraction, -1074, false⟩
  else ⟨0x10000000000000 + fraction, (field : Int) - 1075, fraction = 0 && field ≠ 1⟩

structure Ratio where
  num : Nat
  den : Nat

namespace Ratio

def shift (r : Ratio) (e : Int) : Ratio :=
  if 0 ≤ e then ⟨r.num * Nat.pow 10 e.toNat, r.den⟩ else ⟨r.num, r.den * Nat.pow 10 (-e).toNat⟩

def floor (r : Ratio) : Nat := r.num / r.den

end Ratio

namespace Binary

-- A quarter of the distance to the upper neighbour, as a fraction.
def quarterGap (b : Binary) : Ratio :=
  let e := b.exponent - 2
  if 0 ≤ e then ⟨1 <<< e.toNat, 1⟩ else ⟨1, 1 <<< (-e).toNat⟩

def quarters (b : Binary) (count : Nat) : Ratio :=
  ⟨count * b.quarterGap.num, b.quarterGap.den⟩

def value (b : Binary) : Ratio := b.quarters (4 * b.mantissa)

def lower (b : Binary) : Ratio := b.quarters (4 * b.mantissa - if b.edge then 1 else 2)

def upper (b : Binary) : Ratio := b.quarters (4 * b.mantissa + 2)

-- Whether `n * 10 ^ e` reads back as the double; the ends of the interval belong to the double with
-- the even mantissa.
def contains (b : Binary) (n : Nat) (e : Int) : Bool :=
  let lower := b.lower.shift (-e)
  let upper := b.upper.shift (-e)
  if b.mantissa % 2 = 0 then lower.num ≤ n * lower.den && n * upper.den ≤ upper.num
  else lower.num < n * lower.den && n * upper.den < upper.num

-- For a ratio below one, how many zeros follow the point.
def leadingZeros (r : Ratio) : Nat → Nat
  | 0 => 0
  | fuel + 1 => if r.den ≤ 10 * r.num then 0 else leadingZeros ⟨10 * r.num, r.den⟩ fuel + 1

-- The exponent `k` with `10 ^ (k - 1) ≤ value < 10 ^ k`.
def magnitude (b : Binary) : Int :=
  let v := b.value
  if v.den ≤ v.num then ((toString v.floor).length : Int) else -(leadingZeros v 400 : Int)

-- The decimal with `10 ^ e` as its last place that reads back as `b`, if there is one: of the two
-- neighbours of `b` on that grid the nearer one, or the upper one if both are equally near.
def onGrid? (b : Binary) (e : Int) : Option Digits :=
  let scaled := b.value.shift (-e)
  let below := scaled.floor
  let takeUpper := scaled.den ≤ 2 * (scaled.num % scaled.den)
  match b.contains below e, b.contains (below + 1) e with
  | true, true => some ⟨if takeUpper then below + 1 else below, e⟩
  | true, false => some ⟨below, e⟩
  | false, true => some ⟨below + 1, e⟩
  | false, false => none

-- The fewest digits that read back as `b`; seventeen are always enough. Of the decimals with the
-- fewest digits that read back as this double, the nearest one.
def shortest (b : Binary) : Digits :=
  let k := b.magnitude
  ((List.range 17).findSome? fun n => b.onGrid? (k - (n + 1 : Nat))).getD ⟨0, 0⟩

end Binary

def Digits.positional (d : Digits) : String :=
  let all := (toString d.significand).toList
  let digits := (all.reverse.dropWhile (· == '0')).reverse
  let exponent := d.exponent + (all.length - digits.length : Nat)
  if digits = [] then "0"
  else if 0 ≤ exponent then String.ofList (digits ++ List.replicate exponent.toNat '0')
  else
    let places := (-exponent).toNat
    if places < digits.length then
      let whole := digits.length - places
      String.ofList (digits.take whole ++ '.' :: digits.drop whole)
    else String.ofList ('0' :: '.' :: List.replicate (places - digits.length) '0' ++ digits)

-- A double in full positional notation: `70`, `70.5`, `-0`, `0.0000001`, `inf`, `NaN`.
def textOfBits (bits : UInt64) : String :=
  let sign := if bits.toNat / 0x8000000000000000 = 1 then "-" else ""
  let field : Nat := bits.toNat / 0x10000000000000 % 0x800
  if field = 2047 then
    if bits.toNat % 0x10000000000000 = 0 then sign ++ "inf" else "NaN"
  else sign ++ (Binary.ofBits bits).shortest.positional

def text (x : Float) : String := textOfBits x.toBits

end DayNight.Decimal
