import DayNight.Text.Numeral

namespace DayNight.Decimal

structure Written where
  negative : Bool
  significand : Nat
  exponent : Int
  deriving DecidableEq, Repr

-- The nearest double to `significand * 10 ^ exponent`. Numbers of `10 ^ 310` and more overflow, and
-- those below `10 ^ -330` vanish.
def nearest (significand : Nat) (exponent : Int) : Float :=
  let top : Int := (toString significand).length + exponent
  if significand = 0 then 0
  else if 310 < top then Float.ofBits 0x7ff0000000000000
  else if top < -330 then 0
  else if 0 ≤ exponent then Float.ofScientific significand false exponent.toNat
  else Float.ofScientific significand true (-exponent).toNat

def Written.toFloat (w : Written) : Float :=
  let size := nearest w.significand w.exponent
  if w.negative then -size else size

def takeDigits (cs : List Char) : List Char × List Char :=
  (cs.takeWhile Char.isDigit, cs.dropWhile Char.isDigit)

def exponent? : List Char → Option Int := Text.signed?

-- At least one digit, with at most one point among them, and then perhaps an exponent.
def magnitude? (negative : Bool) (cs : List Char) : Option Written := do
  let (whole, rest) := takeDigits cs
  let (part, rest) := match rest with
    | '.' :: rest => takeDigits rest
    | rest => ([], rest)
  guard (whole ≠ [] ∨ part ≠ [])
  let e ← match rest with
    | [] => some 0
    | 'e' :: rest => exponent? rest
    | 'E' :: rest => exponent? rest
    | _ => none
  return ⟨negative, Text.digitsValue (whole ++ part), e - part.length⟩

-- A double in the plain notation of configuration values: an optional sign, then a number or, in
-- any case, one of `inf`, `infinity` and `nan`.
def float? (s : String) : Option Float :=
  let (negative, cs) := match s.toList with
    | '-' :: cs => (true, cs)
    | '+' :: cs => (false, cs)
    | cs => (false, cs)
  let word := String.ofList (cs.map Char.toLower)
  if word = "inf" ∨ word = "infinity" then
    some (Float.ofBits (if negative then 0xfff0000000000000 else 0x7ff0000000000000))
  else if word = "nan" then some (Float.ofBits 0x7ff8000000000000)
  else (magnitude? negative cs).map Written.toFloat

end DayNight.Decimal
