import DayNight.Config.Format
import DayNight.Decimal.Reading
import DayNight.Setting.Basic

namespace DayNight.Setting

open Text (lowerKey)

def word? (s : String) : Option Bool :=
  let s := Text.lowerAscii s
  if s = "true" ∨ s = "on" ∨ s = "yes" then some true
  else if s = "false" ∨ s = "off" ∨ s = "no" then some false
  else none

-- The nearest natural number that fits 64 bits; a half goes up, and what is no number is zero.
def roundToWord (x : Float) : Nat :=
  if x < 18446744073709551616 then
    let whole := x.toUInt64
    if x - whole.toFloat ≥ 0.5 then whole.toNat + 1 else whole.toNat
  else if x.isNaN then 0
  else UInt64.size - 1

def natural? : Setting → Option Nat
  | integer n => if 0 ≤ n then some n.toNat else none
  | flag b => some b.toNat
  | float x => some (roundToWord x)
  | text s =>
    match word? s with
    | some b => some b.toNat
    | none => Text.unsignedBelow? UInt64.size s.toList
  | _ => none

def naturalBelow? (bound : Nat) (s : Setting) : Option Nat := s.natural?.filter (· < bound)

def integerToFloat (n : Int) : Float :=
  let size := Decimal.nearest n.natAbs 0
  if n < 0 then -size else size

def float? : Setting → Option Float
  | integer n => some (integerToFloat n)
  | flag b => some (if b then 1 else 0)
  | float x => some x
  | text s =>
    match word? s with
    | some b => some (if b then 1 else 0)
    | none => Decimal.float? s
  | _ => none

def flag? : Setting → Option Bool
  | integer n => some (n ≠ 0)
  | flag b => some b
  | float x => some (x != 0)
  | text s => if s = "1" then some true else if s = "0" then some false else word? s
  | _ => none

def text? : Setting → Option String
  | integer n => some (toString n)
  | flag b => some (if b then "true" else "false")
  | float x => some (Decimal.text x)
  | text s => some s
  | _ => none

-- A device is not converted: an index is an integer, and every text is a path.
def device? : Setting → Option Device
  | integer n => 
    if 0 ≤ n ∧ n.toNat < UInt32.size then some (.index (UInt32.ofNat n.toNat)) else none
  | text s => some (.path s)
  | _ => none

-- A choice: its name in any case, or a table with that name as its only key.
def choice? (names : List String) : Setting → Option String
  | text s => named s
  | table [(key, _)] => named key
  | _ => none
where
  named (s : String) : Option String := names.find? fun name => lowerKey name = lowerKey s

def fields? (names : List String) : Setting → Option (List (Option Setting))
  | table entries => some (names.map fun name => entries.lookup name)
  | list items => some ((items.map some ++ List.replicate names.length none).take names.length)
  | _ => none

def format : Config.Format Setting where
  fields := fields?
  device := device?
  naturalBelow := naturalBelow?
  float := float?
  flag := flag?
  text := text?
  choice := choice?

end DayNight.Setting
