import DayNight.Json.Basic

namespace DayNight.Json

def isSpace (c : Char) : Bool := c = ' ' || c = '\t' || c = '\n' || c = '\r'

def skipSpace (cs : List Char) : List Char := cs.dropWhile isSpace

def hexDigit? (c : Char) : Option Nat :=
  if c.isDigit then some (c.toNat - '0'.toNat)
  else if 'a' ≤ c ∧ c ≤ 'f' then some (c.toNat - 'a'.toNat + 10)
  else if 'A' ≤ c ∧ c ≤ 'F' then some (c.toNat - 'A'.toNat + 10)
  else none

def hexValue? (cs : List Char) : Option Nat :=
  cs.foldlM (fun value c => (hexDigit? c).map (16 * value + ·)) 0

def escape? : Char → Option Nat
  | '"' => some 0x22
  | '\\' => some 0x5C
  | '/' => some 0x2F
  | 'b' => some 0x08
  | 'f' => some 0x0C
  | 'n' => some 0x0A
  | 'r' => some 0x0D
  | 't' => some 0x09
  | _ => none

-- The rest of a string after its opening quote, as code points and halves of surrogate pairs;
-- `read` holds those so far, the latest first.
def stringUnits : List Char → List Nat → Option (List Nat × List Char)
  | [], _ => none
  | '"' :: cs, read => some (read.reverse, cs)
  | '\\' :: 'u' :: a :: b :: c :: d :: cs, read =>
    match hexValue? [a, b, c, d] with
    | some n => stringUnits cs (n :: read)
    | none => none
  | '\\' :: c :: cs, read =>
    match escape? c with
    | some n => stringUnits cs (n :: read)
    | none => none
  | c :: cs, read => if c.toNat < 0x20 ∨ c = '\\' then none else stringUnits cs (c.toNat :: read)

-- Joins surrogate pairs; none if half a pair is left over.
def joinUnits : List Nat → List Char → Option (List Char)
  | [], text => some text.reverse
  | unit :: units, text =>
    if unit < 0xD800 ∨ 0xE000 ≤ unit then joinUnits units (Char.ofNat unit :: text)
    else
      match units with
      | low :: rest =>
        if unit < 0xDC00 ∧ 0xDC00 ≤ low ∧ low < 0xE000 then
          joinUnits rest (Char.ofNat (0x10000 + (unit - 0xD800) * 0x400 + (low - 0xDC00)) :: text)
        else none
      | [] => none

def string? (cs : List Char) : Option (JsonText × List Char) :=
  (stringUnits cs []).map fun (units, rest) => ((joinUnits units []).map String.ofList, rest)

-- Digits without a leading zero, unless zero is the only one.
def wholePart? (cs : List Char) : Option (List Char × List Char) :=
  match Decimal.takeDigits cs with
  | ([], _) => none
  | ('0' :: _ :: _, _) => none
  | (digits, rest) => some (digits, rest)

def fractionPart? : List Char → Option (List Char × List Char)
  | '.' :: cs =>
    match Decimal.takeDigits cs with
    | ([], _) => none
    | (digits, rest) => some (digits, rest)
  | cs => some ([], cs)

-- The exponent, if there is one; the flag tells whether there was.
def exponentPart? (cs : List Char) : Option (Bool × Int × List Char) :=
  let digits (negative : Bool) (cs : List Char) :=
    match Decimal.takeDigits cs with
    | ([], _) => none
    | (digits, rest) =>
      let size := Int.ofNat (Text.digitsValue digits)
      some (true, if negative then -size else size, rest)
  match cs with
  | c :: rest =>
    if c = 'e' ∨ c = 'E' then
      match rest with
      | '+' :: rest => digits false rest
      | '-' :: rest => digits true rest
      | rest => digits false rest
    else some (false, 0, cs)
  | [] => some (false, 0, [])

def fits64 (n : Int) : Bool := -0x8000000000000000 ≤ n && n < 0x10000000000000000

def number? (cs : List Char) : Option (JsonNumber × List Char) := do
  let (negative, cs) := match cs with
    | '-' :: cs => (true, cs)
    | cs => (false, cs)
  let (whole, cs) ← wholePart? cs
  let (part, cs) ← fractionPart? cs
  let (hasExponent, exponent, cs) ← exponentPart? cs
  let size := Text.digitsValue whole
  let n : Int := if negative then -(size : Int) else size
  if part = [] ∧ !hasExponent ∧ fits64 n ∧ !(negative && size == 0) then
    return (.integer n, cs)
  else
    return (.decimal (.ofDigits negative whole part exponent), cs)

def word? (word : String) (cs : List Char) : Option (List Char) :=
  if word.toList.isPrefixOf cs then some (cs.drop word.length) else none

mutual

-- A value, after white space. The fuel bounds the nesting and the number of elements.
def value? : Nat → List Char → Option (Json × List Char)
  | 0, _ => none
  | fuel + 1, cs =>
    match skipSpace cs with
    | '"' :: cs => (string? cs).map fun (s, rest) => (.string s, rest)
    | '[' :: cs =>
      match skipSpace cs with
      | ']' :: rest => some (.array [], rest)
      | cs => (items? fuel cs []).map fun (items, rest) => (.array items, rest)
    | '\x7b' :: cs =>
      match skipSpace cs with
      | '\x7d' :: rest => some (.object [], rest)
      | cs => (members? fuel cs []).map fun (members, rest) => (.object members, rest)
    | 't' :: cs => (word? "rue" cs).map fun rest => (.bool true, rest)
    | 'f' :: cs => (word? "alse" cs).map fun rest => (.bool false, rest)
    | 'n' :: cs => (word? "ull" cs).map fun rest => (.null, rest)
    | cs => (number? cs).map fun (n, rest) => (.number n, rest)

-- The items of an array up to its end; `read` holds those so far, the latest first.
def items? : Nat → List Char → List Json → Option (List Json × List Char)
  | 0, _, _ => none
  | fuel + 1, cs, read =>
    match value? fuel cs with
    | none => none
    | some (item, rest) =>
      match skipSpace rest with
      | ',' :: rest => items? fuel rest (item :: read)
      | ']' :: rest => some ((item :: read).reverse, rest)
      | _ => none

def members? :
    Nat → List Char → List (JsonText × Json) → Option (List (JsonText × Json) × List Char)
  | 0, _, _ => none
  | fuel + 1, cs, read =>
    match skipSpace cs with
    | '"' :: cs =>
      match string? cs with
      | none => none
      | some (key, rest) =>
        match skipSpace rest with
        | ':' :: rest =>
          match value? fuel rest with
          | none => none
          | some (item, rest) =>
            match skipSpace rest with
            | ',' :: rest => members? fuel rest ((key, item) :: read)
            | '\x7d' :: rest => some (((key, item) :: read).reverse, rest)
            | _ => none
        | _ => none
    | _ => none

end

-- Every level and every element takes a character at least, and two calls at most.
def parse? (s : String) : Option Json := do
  let cs := s.toList
  let (value, rest) ← value? (2 * cs.length + 2) cs
  guard (skipSpace rest = [])
  return value

end DayNight.Json
