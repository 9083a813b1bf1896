import DayNight.Toml.Date
import DayNight.Toml.Text

namespace DayNight.Toml

-- Digits with single underscores between them; the answer has the digits alone.
def grouped? (isDigit : Char → Bool) : List Char → Option (List Char)
  | [] => none
  | [c] => if isDigit c then some [c] else none
  | c :: '_' :: cs =>
    if isDigit c then (grouped? isDigit cs).map (c :: ·) else none
  | c :: cs => if isDigit c then (grouped? isDigit cs).map (c :: ·) else none

-- The digits of a decimal number, which do not begin with a zero unless it is the only one.
def decimalDigits? (cs : List Char) : Option (List Char) :=
  match grouped? Char.isDigit cs with
  | some ('0' :: _ :: _) => none
  | digits => digits

def takeSign : List Char → Bool × List Char
  | '-' :: cs => (true, cs)
  | '+' :: cs => (false, cs)
  | cs => (false, cs)

def valueIn (base : Nat) (cs : List Char) : Nat :=
  cs.foldl (fun value c => base * value + (hexDigit? c).getD 0) 0

-- An integer, which has to fit 64 bits: decimal with a sign, or in base 16, 8 or 2.
def integer? (cs : List Char) : Option Int :=
  let based (base : Nat) (isDigit : Char → Bool) (digits : List Char) : Option Int :=
    (grouped? isDigit digits).map fun ds => (valueIn base ds : Int)
  let n := match cs with
    | '0' :: 'x' :: digits => based 16 (fun c => (hexDigit? c).isSome) digits
    | '0' :: 'o' :: digits => based 8 (fun c => '0' ≤ c && c ≤ '7') digits
    | '0' :: 'b' :: digits => based 2 (fun c => c = '0' || c = '1') digits
    | cs =>
      let (negative, digits) := takeSign cs
      (decimalDigits? digits).map fun ds =>
        let size : Int := Text.digitsValue ds
        if negative then -size else size
  n.filter Text.isSigned64

-- Splits at the first character of a kind; the second part begins with it.
def splitAtKind (kind : Char → Bool) (cs : List Char) : List Char × List Char :=
  (cs.takeWhile (!kind ·), cs.dropWhile (!kind ·))

def decimal? (cs : List Char) : Option Decimal.Written := do
  let (negative, cs) := takeSign cs
  let (number, exponent) := splitAtKind (fun c => c = 'e' || c = 'E') cs
  let (whole, part) := splitAtKind (· = '.') number
  guard (part ≠ [] ∨ exponent ≠ [])
  let whole ← decimalDigits? whole
  let part ← if part = [] then some [] else grouped? Char.isDigit part.tail
  let exponent ←
    if exponent = [] then some 0
    else
      let (negative, digits) := takeSign exponent.tail
      (grouped? Char.isDigit digits).map fun ds =>
        let size : Int := Text.digitsValue ds
        if negative then -size else size
  return ⟨negative, Text.digitsValue (whole ++ part), exponent - part.length⟩

-- A float. A positive number may not be too large for one.
def float? (cs : List Char) : Option Float :=
  let (negative, word) := takeSign cs
  if word = ['i', 'n', 'f'] then
    some (Float.ofBits (if negative then 0xFFF0000000000000 else 0x7FF0000000000000))
  else if word = ['n', 'a', 'n'] then some (Float.ofBits 0x7FF8000000000000)
  else do
    let w ← decimal? cs
    let x := w.toFloat
    guard (!(x.isInf && !negative))
    return x

def isScalarChar (c : Char) : Bool :=
  c.isAlphanum || c = '_' || c = '+' || c = '-' || c = '.' || c = ':'

-- The characters of a scalar, with a blank between a date and a digit, and what follows it.
def scalarRun (cs : List Char) : List Char × List Char :=
  let run := cs.takeWhile isScalarChar
  let rest := cs.dropWhile isScalarChar
  match date? run, rest with
  | some (_, []), ' ' :: c :: more =>
    if c.isDigit then
      (run ++ ' ' :: (c :: more).takeWhile isScalarChar, (c :: more).dropWhile isScalarChar)
    else (run, rest)
  | _, _ => (run, rest)

def scalar? (cs : List Char) : Option (Setting × List Char) :=
  let (run, rest) := scalarRun cs
  let value :=
    if run = ['t', 'r', 'u', 'e'] then some (.flag true)
    else if run = ['f', 'a', 'l', 's', 'e'] then some (.flag false)
    else
      match dateTime? run, integer? run, float? run with
      | some text, _, _ => some (dateTable text)
      | none, some n, _ => some (.integer n)
      | none, none, some x => some (.float x)
      | none, none, none => none
  value.map fun v => (v, rest)

end DayNight.Toml
