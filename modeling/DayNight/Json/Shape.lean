import DayNight.Json.Basic

namespace DayNight.Json

def named (members : List (JsonText × Json)) (name : String) : List Json :=
  members.filterMap fun (key, value) => if key = some name then some value else none

def atMostOne : List Json → Option (Option Json)
  | [] => some none
  | [value] => some (some value)
  | _ => none

-- The fields of a record, one entry for each name; an entry is empty where the field is missing. In
-- an object no field may occur twice; an array may end early but not late.
def fields? (names : List String) : Json → Option (List (Option Json))
  | object members =>
    if members.all fun (key, _) => key.isSome then
      names.mapM fun name => atMostOne (named members name)
    else none
  | array items =>
    if items.length ≤ names.length then
      some (items.map some ++ List.replicate (names.length - items.length) none)
    else none
  | _ => none

def integer? : Json → Option Int
  | number (.integer n) => some n
  | _ => none

def naturalBelow? (bound : Nat) (j : Json) : Option Nat :=
  match j.integer? with
  | some n => if 0 ≤ n ∧ n < bound then some n.toNat else none
  | none => none

def float? : Json → Option Float
  | number n => n.float?
  | _ => none

def bool? : Json → Option Bool
  | bool b => some b
  | _ => none

def text? : Json → Option String
  | string s => s
  | _ => none

-- A choice without contents: its name, or an object with that name over null.
def choice? (names : List String) : Json → Option String
  | string (some name) => if name ∈ names then some name else none
  | object [(some name, null)] => if name ∈ names then some name else none
  | _ => none

def optional? {α : Type} (read : Json → Option α) : Option Json → Option (Option α)
  | none => some none
  | some null => some none
  | some j => (read j).map some

end DayNight.Json
