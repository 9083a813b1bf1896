import DayNight.Decimal.Reading
import DayNight.Setting.Basic

namespace DayNight.Toml

def twoDigits? (a b : Char) : Option Nat := Text.natural? [a, b]

def isLeapYear (year : Nat) : Bool := year % 4 = 0 && (year % 100 ≠ 0 || year % 400 = 0)

def daysInMonth (year month : Nat) : Nat :=
  if month = 2 then if isLeapYear year then 29 else 28
  else if month = 4 ∨ month = 6 ∨ month = 9 ∨ month = 11 then 30
  else 31

def date? : List Char → Option (List Char × List Char)
  | a :: b :: c :: d :: '-' :: m :: n :: '-' :: e :: f :: rest => do
    let year ← Text.natural? [a, b, c, d]
    let month ← twoDigits? m n
    let day ← twoDigits? e f
    guard (1 ≤ month ∧ month ≤ 12 ∧ 1 ≤ day ∧ day ≤ daysInMonth year month)
    return ([a, b, c, d, '-', m, n, '-', e, f], rest)
  | _ => none

-- The fraction of a second, if there is one: nine digits count, and zeros at their end do not.
def secondPart? : List Char → Option (List Char × List Char)
  | '.' :: cs =>
    match Decimal.takeDigits cs with
    | ([], _) => none
    | (digits, rest) =>
      match ((digits.take 9).reverse.dropWhile (· = '0')).reverse with
      | [] => some ([], rest)
      | kept => some ('.' :: kept, rest)
  | cs => some ([], cs)

def time? : List Char → Option (List Char × List Char)
  | a :: b :: ':' :: c :: d :: ':' :: e :: f :: rest => do
    let hour ← twoDigits? a b
    let minute ← twoDigits? c d
    let second ← twoDigits? e f
    guard (hour ≤ 23 ∧ minute ≤ 59 ∧ second ≤ 60)
    let (part, rest) ← secondPart? rest
    return ([a, b, ':', c, d, ':', e, f] ++ part, rest)
  | _ => none

-- The offset after a time, if there is one; it ends the text. A negative offset of nothing is
-- written as a positive one.
def offset? : List Char → Option (List Char)
  | [] => some []
  | ['Z'] => some ['Z']
  | ['z'] => some ['Z']
  | [sign, a, b, ':', c, d] => do
    guard (sign = '+' ∨ sign = '-')
    let hours ← twoDigits? a b
    let minutes ← twoDigits? c d
    guard (hours ≤ 23 ∧ minutes ≤ 59)
    let sign := if hours = 0 ∧ minutes = 0 then '+' else sign
    return [sign, a, b, ':', c, d]
  | _ => none

def dateTime? (cs : List Char) : Option (List Char) :=
  match date? cs with
  | some (date, []) => some date
  | some (date, mark :: rest) => do
    guard (mark = 'T' ∨ mark = 't' ∨ mark = ' ')
    let (time, rest) ← time? rest
    let offset ← offset? rest
    return date ++ 'T' :: time ++ offset
  | none =>
    match time? cs with
    | some (time, []) => some time
    | _ => none

-- The key of a date that is spelled as a table.
def dateKey : String := "$__toml_private_datetime"

def dateTable (text : List Char) : Setting := .table [(dateKey, .text (String.ofList text))]

mutual

-- Puts a text in place of each date. What stands beside a date in its table is not looked at.
def dated? : Setting → Option Setting
  | .table entries =>
    match entries with
    | [] => some (.table [])
    | (key, value) :: rest =>
      if key = dateKey then
        match value with
        | .text s => (dateTime? s.toList).map fun text => .text (String.ofList text)
        | _ => none
      else do
        let value ← dated? value
        let rest ← datedEntries? rest
        return .table ((key, value) :: rest)
  | .list items => (datedItems? items).map .list
  | s => some s

def datedEntries? : List (String × Setting) → Option (List (String × Setting))
  | [] => some []
  | (key, value) :: rest => do
    let value ← dated? value
    let rest ← datedEntries? rest
    return (key, value) :: rest

def datedItems? : List Setting → Option (List Setting)
  | [] => some []
  | item :: rest => do
    let item ← dated? item
    let rest ← datedItems? rest
    return item :: rest

end

end DayNight.Toml
