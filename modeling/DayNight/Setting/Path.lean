import DayNight.Setting.Basic
import DayNight.Text.Numeral

namespace DayNight.Setting

open Text (lowerKey)

inductive Step
  | key (name : String)
  | index (i : Int)
  deriving DecidableEq, Repr

-- The item that an index means; negative ones count from the end.
def place (i : Int) (length : Nat) : Nat :=
  if 0 ≤ i then i.toNat else length - i.natAbs

-- Puts `new` where the path leads from `old`.
def assign (new : Setting) : List Step → Setting → Setting
  | [], _ => new
  | [.key name], old => merge name new old
  | .key name :: step :: path, old =>
    let child := (old.entries.lookup (lowerKey name)).getD nothing
    table (setEntry (lowerKey name) (assign new (step :: path) child) old.entries)
  | .index i :: path, old =>
    let items := old.items
    let n := place i items.length
    list (setItem items n (assign new path (items[n]?.getD nothing)))

def isNameChar (c : Char) : Bool := c.isAlphanum || c = ' ' || c = '_' || c = '-'

def name? (cs : List Char) : Option (String × List Char) :=
  match cs.takeWhile isNameChar with
  | [] => none
  | name => some (String.ofList name, cs.dropWhile isNameChar)

def isGap (c : Char) : Bool := c = ' ' || c = '\t'

def index? (cs : List Char) : Option (Int × List Char) := do
  let cs := cs.dropWhile isGap
  let (negative, cs) := match cs with
    | '-' :: cs => (true, cs)
    | cs => (false, cs)
  let size ← Text.natural? (cs.takeWhile Char.isDigit)
  let n : Int := if negative then -(size : Int) else size
  guard (Text.isSigned64 n)
  match (cs.dropWhile Char.isDigit).dropWhile isGap with
  | ']' :: rest => some (n, rest)
  | _ => none

def steps? : Nat → List Char → Option (List Step)
  | _, [] => some []
  | 0, _ => none
  | fuel + 1, '.' :: cs => do
    let (name, rest) ← name? cs
    let others ← steps? fuel rest
    return .key name :: others
  | fuel + 1, '[' :: cs => do
    let (i, rest) ← index? cs
    let others ← steps? fuel rest
    return .index i :: others
  | _, _ => none

-- A path: a name, and then names after points and indices in brackets.
def path? (s : String) : Option (List Step) := do
  let (name, rest) ← name? s.toList
  let others ← steps? rest.length rest
  return .key name :: others

-- Puts a value where a key leads; a key that is no path is a name as a whole.
def assignKey (root : Setting) (key : String) (value : Setting) : Setting :=
  assign value ((path? key).getD [.key key]) root

def overlay (root : Setting) (layer : List (String × Setting)) : Setting :=
  layer.foldl (fun root (key, value) => assignKey root key value) root

end DayNight.Setting
