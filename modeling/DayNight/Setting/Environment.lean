import DayNight.Config.Library
import DayNight.Decimal.Reading
import DayNight.Setting.Path

namespace DayNight.Setting

open Config (VariableNames)
open Text (lowerKey)

-- Puts a point in place of every separator, from left to right. The number counts the characters
-- that are left of the separator last seen.
def dotted (separator : List Char) : Nat → List Char → List Char
  | _, [] => []
  | left + 1, _ :: cs => dotted separator left cs
  | 0, c :: cs =>
    if separator ≠ [] ∧ separator.isPrefixOf (c :: cs) then
      '.' :: dotted separator (separator.length - 1) cs
    else c :: dotted separator 0 cs

-- `PETCAM__CAPTURE__FPS` is the key `capture.fps`.
def variableKey? (names : VariableNames) (name : String) : Option String :=
  let start := (lowerKey (names.start ++ names.afterStart)).toList
  let name := (lowerKey name).toList
  if start.isPrefixOf name then
    some (String.ofList (dotted names.between.toList 0 (name.drop start.length)))
  else none

-- A value is read as the first that fits: a truth value, an integer of 64 bits, a float, a text.
def variableValue (s : String) : Setting :=
  let word := Text.lowerAscii s
  if word = "true" then flag true
  else if word = "false" then flag false
  else
    match Text.signed64? s.toList, Decimal.float? s with
    | some n, _ => integer n
    | none, some x => float x
    | none, none => text s

def environmentLayer (names : VariableNames) (environment : List (String × String)) :
    List (String × Setting) :=
  environment.filterMap fun (name, value) =>
    (variableKey? names name).map fun key => (key, variableValue value)

end DayNight.Setting
