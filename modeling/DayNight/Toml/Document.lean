import DayNight.Toml.Scalar

namespace DayNight.Toml

-- A table may be opened by one header only. One that came about by a longer header may still be
-- opened by its own; one that came about by dotted keys may only be extended by such keys in the
-- same place.
inductive Origin
  -- By its own header, by an entry of an array of tables, or as the root.
  | header
  -- On the way to the table of a longer header.
  | path
  -- By a dotted key.
  | dotted
  deriving DecidableEq, Repr

inductive Node
  | value (s : Setting)
  | table (origin : Origin) (entries : List (String × Node))
  -- The tables of an array, the latest first.
  | tables (items : List (List (String × Node)))
  deriving Inhabited

abbrev Entries := List (String × Node)

def setNode (key : String) (node : Node) : Entries → Entries
  | [] => [(key, node)]
  | (k, old) :: rest => if k = key then (k, node) :: rest else (k, old) :: setNode key node rest

-- Changes the entries of the table at the end of a path; tables that are missing on the way come
-- about with the given origin. In an array the path leads on in the latest table.
def changeAt (origin : Origin) (change : Origin → Entries → Option Entries) :
    List String → Origin → Entries → Option Entries
  | [], here, entries => change here entries
  | key :: path, _, entries =>
    match entries.lookup key with
    | none =>
      (changeAt origin change path origin []).map fun inner =>
        setNode key (.table origin inner) entries
    | some (.table kind old) =>
      if origin = .dotted ∧ kind = .header then none
      else
        (changeAt origin change path kind old).map fun inner =>
          setNode key (.table kind inner) entries
    | some (.tables (latest :: earlier)) =>
      (changeAt origin change path .header latest).map fun inner =>
        setNode key (.tables (inner :: earlier)) entries
    | some _ => none

-- Adds the value of a dotted key. The key may not be there yet, and dotted keys extend only tables
-- that dotted keys made.
def addDotted (path : List String) (key : String) (s : Setting) (entries : Entries) :
    Option Entries :=
  changeAt .dotted (fun here inner =>
    if here = .dotted ↔ path = [] then none
    else
      match inner.lookup key with
      | some _ => none
      | none => some (inner ++ [(key, .value s)])) path .header entries

mutual

def Node.toSetting : Node → Setting
  | .value s => s
  | .table _ entries => .table (settingsOf entries)
  | .tables items => .list (settingsOfTables items [])

def settingsOf : List (String × Node) → List (String × Setting)
  | [] => []
  | (key, node) :: rest => (key, node.toSetting) :: settingsOf rest

-- The tables of an array in order; `later` are those that come after.
def settingsOfTables : List (List (String × Node)) → List Setting → List Setting
  | [], later => later
  | entries :: rest, later => settingsOfTables rest (.table (settingsOf entries) :: later)

end

def splitKey (parts : List String) : List String × String :=
  (parts.dropLast, parts.getLastD "")

mutual

-- A value at the start of the text. The fuel bounds the nesting and the number of items; `depth`
-- says how deep arrays and tables may still nest.
def value? : Nat → Nat → List Char → Option (Setting × List Char)
  | 0, _, _ => none
  | fuel + 1, depth, cs =>
    match cs with
    | '"' :: _ => (string? cs).map fun (s, rest) => (.text s, rest)
    | '\'' :: _ => (string? cs).map fun (s, rest) => (.text s, rest)
    | '[' :: rest =>
      match depth with
      | 0 => none
      | depth + 1 => (items? fuel depth rest []).map fun (items, rest) => (.list items, rest)
    | '\x7b' :: rest =>
      match depth with
      | 0 => none
      | depth + 1 =>
        match skipBlanks rest with
        | '\x7d' :: rest => some (.table [], rest)
        | rest =>
          (members? fuel depth rest []).map fun (entries, rest) =>
            (.table (settingsOf entries), rest)
    | cs => scalar? cs

-- The items of an array after its bracket or a comma; `read` holds those so far, the latest first.
def items? : Nat → Nat → List Char → List Setting → Option (List Setting × List Char)
  | 0, _, _, _ => none
  | fuel + 1, depth, cs, read =>
    match skipLines cs.length cs with
    | ']' :: rest => some (read.reverse, rest)
    | cs =>
      match value? fuel depth cs with
      | none => none
      | some (item, rest) =>
        match skipLines rest.length rest with
        | ',' :: rest => items? fuel depth rest (item :: read)
        | ']' :: rest => some ((item :: read).reverse, rest)
        | _ => none

def members? : Nat → Nat → List Char → Entries → Option (Entries × List Char)
  | 0, _, _, _ => none
  | fuel + 1, depth, cs, read =>
    match key? cs with
    | some (parts, '=' :: rest) =>
      match value? fuel depth (skipBlanks rest) with
      | none => none
      | some (s, rest) =>
        match addDotted (splitKey parts).1 (splitKey parts).2 s read with
        | none => none
        | some read =>
          match skipBlanks rest with
          | ',' :: rest => members? fuel depth rest read
          | '\x7d' :: rest => some (read, rest)
          | _ => none
    | _ => none

end

-- A document as far as it is read: the tables that are closed, and the open one with the path of
-- its header.
structure Reading where
  root : Entries
  path : List String
  isItem : Bool
  current : Entries

namespace Reading

def start : Reading := ⟨[], [], false, []⟩

def close (r : Reading) : Option Entries :=
  if r.path = [] then some r.current
  else
    let (path, key) := splitKey r.path
    changeAt .path (fun _ inner =>
      match r.isItem, inner.lookup key with
      | true, none => some (setNode key (.tables [r.current]) inner)
      | true, some (.tables items) => some (setNode key (.tables (r.current :: items)) inner)
      | false, none => some (setNode key (.table .header r.current) inner)
      | _, _ => none) path .header r.root

-- Opens a table. Entries that longer headers put into it stay.
def openTable (r : Reading) (parts : List String) : Option Reading := do
  let root ← r.close
  let (path, key) := splitKey parts
  let found ← findAt path key root
  match found with
  | none => return ⟨root, parts, false, []⟩
  | some (.table .path old) =>
    let root ←
      changeAt .path (fun _ inner => some (inner.filter fun e => e.1 ≠ key)) path .header root
    return ⟨root, parts, false, old⟩
  | some _ => none
where
  -- What stands under a key at the end of a path; an error if the path leads nowhere.
  findAt : List String → String → Entries → Option (Option Node)
    | [], key, entries => some (entries.lookup key)
    | part :: path, key, entries =>
      match entries.lookup part with
      | none => some none
      | some (.table _ inner) => findAt path key inner
      | some (.tables (latest :: _)) => findAt path key latest
      | some _ => none

def openItem (r : Reading) (parts : List String) : Option Reading := do
  let root ← r.close
  let (path, key) := splitKey parts
  match ← openTable.findAt path key root with
  | none => return ⟨root, parts, true, []⟩
  | some (.tables _) => return ⟨root, parts, true, []⟩
  | some _ => none

def add (r : Reading) (parts : List String) (s : Setting) : Option Reading :=
  (addDotted (splitKey parts).1 (splitKey parts).2 s r.current).map fun entries =>
    { r with current := entries }

end Reading

def lines? : Nat → Reading → List Char → Option Reading
  | 0, _, _ => none
  | fuel + 1, r, cs =>
    match skipBlanks cs with
    | [] => some r
    | '#' :: rest => do
      let rest ← lineEnd? ('#' :: rest)
      lines? fuel r rest
    | '\n' :: rest => lines? fuel r rest
    | '\r' :: '\n' :: rest => lines? fuel r rest
    | '[' :: '[' :: rest => do
      match ← key? rest with
      | (parts, ']' :: ']' :: rest) =>
        let rest ← lineEnd? rest
        lines? fuel (← r.openItem parts) rest
      | _ => none
    | '[' :: rest => do
      match ← key? rest with
      | (parts, ']' :: rest) =>
        let rest ← lineEnd? rest
        lines? fuel (← r.openTable parts) rest
      | _ => none
    | cs => do
      match ← key? cs with
      | (parts, '=' :: rest) =>
        let rest := skipBlanks rest
        let (s, rest) ← value? (2 * rest.length + 2) (depthLimit - 1) rest
        let rest ← lineEnd? rest
        lines? fuel (← r.add parts s) rest
      | _ => none

-- A document as a table; one that is a date as a whole is none.
def document? (s : String) : Option (List (String × Setting)) := do
  let cs := match s.toList with
    | '\uFEFF' :: cs => cs
    | cs => cs
  let r ← lines? (cs.length + 1) .start cs
  let root ← r.close
  match ← dated? (.table (settingsOf root)) with
  | .table entries => return entries
  | _ => none

end DayNight.Toml
