namespace DayNight.Toml

def isBlank (c : Char) : Bool := c = ' ' || c = '\t'

def skipBlanks (cs : List Char) : List Char := cs.dropWhile isBlank

def isPlain (c : Char) : Bool := c = '\t' || 0x20 ≤ c.toNat && c.toNat ≠ 0x7F

-- What follows the end of a line, if the text begins with one.
def newline? : List Char → Option (List Char)
  | '\n' :: cs => some cs
  | '\r' :: '\n' :: cs => some cs
  | _ => none

def skipComment (cs : List Char) : List Char :=
  match cs with
  | '#' :: rest => rest.dropWhile isPlain
  | cs => cs

-- The rest of a line after its contents: blanks, a comment, and the end of the line or text.
def lineEnd? (cs : List Char) : Option (List Char) :=
  match skipComment (skipBlanks cs) with
  | [] => some []
  | cs => newline? cs

-- Blanks, ends of lines and comments, as they may stand between the items of an array.
def skipLines : Nat → List Char → List Char
  | 0, cs => cs
  | fuel + 1, cs =>
    match skipComment (skipBlanks cs) with
    | '\n' :: rest => skipLines fuel rest
    | '\r' :: '\n' :: rest => skipLines fuel rest
    | rest => rest

def hexDigit? (c : Char) : Option Nat :=
  if c.isDigit then some (c.toNat - '0'.toNat)
  else if 'a' ≤ c ∧ c ≤ 'f' then some (c.toNat - 'a'.toNat + 10)
  else if 'A' ≤ c ∧ c ≤ 'F' then some (c.toNat - 'A'.toNat + 10)
  else none

def codePoint? (digits : List Char) : Option Char := do
  let n ← digits.foldlM (fun value c => (hexDigit? c).map (16 * value + ·)) 0
  if n < 0xD800 ∨ (0xE000 ≤ n ∧ n < 0x110000) then some (Char.ofNat n) else none

def escape? : Char → Option Char
  | 'b' => some '\x08'
  | 't' => some '\t'
  | 'n' => some '\n'
  | 'f' => some '\x0C'
  | 'r' => some '\r'
  | '"' => some '"'
  | '\\' => some '\\'
  | _ => none

-- A string on one line after its opening quote; `read` holds its characters, the latest first.
def basicString? : List Char → List Char → Option (String × List Char)
  | [], _ => none
  | '"' :: cs, read => some (String.ofList read.reverse, cs)
  | '\\' :: 'u' :: a :: b :: c :: d :: cs, read =>
    match codePoint? [a, b, c, d] with
    | some x => basicString? cs (x :: read)
    | none => none
  | '\\' :: 'U' :: a :: b :: c :: d :: e :: f :: g :: h :: cs, read =>
    match codePoint? [a, b, c, d, e, f, g, h] with
    | some x => basicString? cs (x :: read)
    | none => none
  | '\\' :: c :: cs, read =>
    match escape? c with
    | some x => basicString? cs (x :: read)
    | none => none
  | c :: cs, read => if isPlain c ∧ c ≠ '\\' then basicString? cs (c :: read) else none

def literalString? (cs : List Char) : Option (String × List Char) :=
  let body (c : Char) : Bool := isPlain c && c ≠ '\''
  match cs.dropWhile body with
  | '\'' :: rest => some (String.ofList (cs.takeWhile body), rest)
  | _ => none

-- Where the reader is in a string of several lines: in its text, after a backslash at the end of a
-- line but before that end, or in the white space after it, which does not count.
inductive Place
  | text
  | beforeEnd
  | afterEnd
  deriving DecidableEq, Repr

-- A string of several lines after its three opening quotes. Up to two quotes may stand before the
-- three closing ones.
def longString? : Place → List Char → List Char → Option (String × List Char)
  | _, [], _ => none
  | .beforeEnd, c :: cs, read =>
    if isBlank c then longString? .beforeEnd cs read
    else
      match c, cs with
      | '\n', cs => longString? .afterEnd cs read
      | '\r', '\n' :: cs => longString? .afterEnd cs read
      | _, _ => none
  | _, '"' :: '"' :: '"' :: '"' :: '"' :: cs, read =>
    some (String.ofList ('"' :: '"' :: read).reverse, cs)
  | _, '"' :: '"' :: '"' :: '"' :: cs, read => some (String.ofList ('"' :: read).reverse, cs)
  | _, '"' :: '"' :: '"' :: cs, read => some (String.ofList read.reverse, cs)
  | _, '\\' :: 'u' :: a :: b :: c :: d :: cs, read =>
    match codePoint? [a, b, c, d] with
    | some x => longString? .text cs (x :: read)
    | none => none
  | _, '\\' :: 'U' :: a :: b :: c :: d :: e :: f :: g :: h :: cs, read =>
    match codePoint? [a, b, c, d, e, f, g, h] with
    | some x => longString? .text cs (x :: read)
    | none => none
  | _, '\\' :: c :: cs, read =>
    match escape? c with
    | some x => longString? .text cs (x :: read)
    | none =>
      if isBlank c then longString? .beforeEnd cs read
      else
        match c, cs with
        | '\n', cs => longString? .afterEnd cs read
        | '\r', '\n' :: cs => longString? .afterEnd cs read
        | _, _ => none
  | place, '\r' :: '\n' :: cs, read =>
    if place = .afterEnd then longString? place cs read else longString? place cs ('\n' :: read)
  | place, c :: cs, read =>
    if c = '\n' then
      if place = .afterEnd then longString? place cs read else longString? place cs ('\n' :: read)
    else if place = .afterEnd ∧ isBlank c then longString? place cs read
    else if isPlain c ∧ c ≠ '\\' then longString? .text cs (c :: read)
    else none

def longLiteral? : List Char → List Char → Option (String × List Char)
  | [], _ => none
  | '\'' :: '\'' :: '\'' :: '\'' :: '\'' :: cs, read =>
    some (String.ofList ('\'' :: '\'' :: read).reverse, cs)
  | '\'' :: '\'' :: '\'' :: '\'' :: cs, read => some (String.ofList ('\'' :: read).reverse, cs)
  | '\'' :: '\'' :: '\'' :: cs, read => some (String.ofList read.reverse, cs)
  | '\r' :: '\n' :: cs, read => longLiteral? cs ('\n' :: read)
  | c :: cs, read => if isPlain c ∨ c = '\n' then longLiteral? cs (c :: read) else none

-- The text without an end of line at its beginning, which a string of several lines drops.
def dropNewline (cs : List Char) : List Char := (newline? cs).getD cs

def string? : List Char → Option (String × List Char)
  | '"' :: '"' :: '"' :: cs => longString? .text (dropNewline cs) []
  | '"' :: cs => basicString? cs []
  | '\'' :: '\'' :: '\'' :: cs => longLiteral? (dropNewline cs) []
  | '\'' :: cs => literalString? cs
  | _ => none

def isBareKey (c : Char) : Bool := c.isAlphanum || c = '_' || c = '-'

-- One part of a key: bare, or a string on one line.
def simpleKey? (cs : List Char) : Option (String × List Char) :=
  match cs with
  | '"' :: cs => basicString? cs []
  | '\'' :: cs => literalString? cs
  | cs =>
    match cs.takeWhile isBareKey with
    | [] => none
    | key => some (String.ofList key, cs.dropWhile isBareKey)

def depthLimit : Nat := 80

def keyParts? : Nat → List Char → Option (List String × List Char)
  | 0, _ => none
  | fuel + 1, cs => do
    let (part, rest) ← simpleKey? (skipBlanks cs)
    match skipBlanks rest with
    | '.' :: rest =>
      let (parts, rest) ← keyParts? fuel rest
      return (part :: parts, rest)
    | rest => return ([part], rest)

def key? (cs : List Char) : Option (List String × List Char) := keyParts? (depthLimit - 1) cs

end DayNight.Toml
