import DayNight.Text.Blank

namespace DayNight

-- Tables match their keys without regard to case: keys are kept in lower case.
inductive Setting
  -- Fills the gaps of a list that grew from its end.
  | nothing
  | flag (b : Bool)
  | integer (n : Int)
  | float (x : Float)
  | text (s : String)
  | list (items : List Setting)
  | table (entries : List (String × Setting))
  deriving Inhabited

namespace Setting

open Text (lowerKey)

def entries : Setting → List (String × Setting)
  | table entries => entries
  | _ => []

def items : Setting → List Setting
  | list items => items
  | _ => []

-- Sets the value of a key, which keeps its place if it has one.
def setEntry (key : String) (value : Setting) : List (String × Setting) → List (String × Setting)
  | [] => [(key, value)]
  | (k, old) :: rest => if k = key then (k, value) :: rest else (k, old) :: setEntry key value rest

-- Sets an item; a list that is too short is filled up with nothing.
def setItem (items : List Setting) (i : Nat) (value : Setting) : List Setting :=
  (items ++ List.replicate (i + 1 - items.length) nothing).set i value

mutual

-- Puts a value under a key of a table. A table is merged into the old value, entry by entry; every
-- other value replaces the old one.
def merge (key : String) : Setting → Setting → Setting
  | table new, old =>
    let place := lowerKey key
    let child := (old.entries.lookup place).getD (table [])
    table (setEntry place (mergeEntries new child) old.entries)
  | nothing, old => table (setEntry (lowerKey key) nothing old.entries)
  | flag b, old => table (setEntry (lowerKey key) (flag b) old.entries)
  | integer n, old => table (setEntry (lowerKey key) (integer n) old.entries)
  | float x, old => table (setEntry (lowerKey key) (float x) old.entries)
  | text s, old => table (setEntry (lowerKey key) (text s) old.entries)
  | list items, old => table (setEntry (lowerKey key) (list items) old.entries)

-- Merges entries, one after the other. No entries leave any value as it is.
def mergeEntries : List (String × Setting) → Setting → Setting
  | [], old => old
  | (key, value) :: rest, old => mergeEntries rest (merge key value old)

end

end Setting

end DayNight
