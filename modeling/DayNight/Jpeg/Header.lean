import DayNight.Jpeg.Marker
import DayNight.Jpeg.Typical

namespace DayNight.Jpeg

-- Sampling factors: how many blocks of a component lie side by side in a unit of an image, and how
-- many below one another.
structure Sampling where
  across : Nat
  down : Nat
  deriving DecidableEq, Repr

namespace Sampling

def single : Sampling := ⟨1, 1⟩

def blocks (s : Sampling) : Nat := s.across * s.down

def max (s t : Sampling) : Sampling := ⟨Nat.max s.across t.across, Nat.max s.down t.down⟩

end Sampling

structure Component where
  id : UInt8
  sampling : Sampling
  quantTable : Nat
  deriving DecidableEq, Repr

inductive Colours
  | grey
  | yCbCr
  | rgb
  | cmyk
  deriving DecidableEq, Repr

-- What the segments so far say. Tables are kept under their numbers, later ones first.
structure Header where
  quantTables : List (Nat × Nat) := []
  -- The codes of the first coefficients.
  firstCodes : List (Nat × List Codeword) := []
  -- The codes of the other coefficients.
  otherCodes : List (Nat × List Codeword) := []
  width : Nat := 0
  height : Nat := 0
  components : List Component := []
  colours : Colours := .yCbCr
  -- The number of units between two restarts; without restarts it is zero.
  restartInterval : Nat := 0
  -- Whether the file is a frame of a camera stream, which may leave out its codes.
  isStreamed : Bool := false

-- The number in the two bytes at the start, the high byte first.
def word? : Bytes → Option (Nat × Bytes)
  | a :: b :: rest => some (256 * a.toNat + b.toNat, rest)
  | _ => none

def segment? (bytes : Bytes) : Option (Bytes × Bytes) := do
  let (length, rest) ← word? bytes
  guard (2 ≤ length ∧ length - 2 ≤ rest.length)
  return (rest.take (length - 2), rest.drop (length - 2))

def readQuantTables : Nat → Bytes → Header → Option Header
  | _, [], h => some h
  | 0, _ :: _, _ => none
  | fuel + 1, tag :: body, h =>
    let wide := tag.toNat / 16
    let size := if wide = 0 then 64 else 128
    let first := if wide = 0 then (body.take 1).map UInt8.toNat else (word? body).toList.map (·.1)
    match first with
    | [entry] =>
      if wide ≤ 1 ∧ tag.toNat % 16 < 4 ∧ size ≤ body.length then
        readQuantTables fuel (body.drop size)
          { h with quantTables := (tag.toNat % 16, entry) :: h.quantTables }
      else none
    | _ => none

def readCodes : Nat → Bytes → Header → Option Header
  | _, [], h => some h
  | 0, _ :: _, _ => none
  | fuel + 1, tag :: body, h =>
    let counts := (body.take 16).map UInt8.toNat
    let symbols := (body.drop 16).take counts.sum
    if 16 ≤ body.length ∧ counts.sum ≤ 256 ∧ symbols.length = counts.sum ∧ tag.toNat % 16 < 4
        ∧ codesFit 1 0 counts then
      let table := (tag.toNat % 16, codewords 1 0 counts symbols)
      let rest := body.drop (16 + counts.sum)
      if tag.toNat / 16 = 0 then
        if symbols.all (· < 16) then
          readCodes fuel rest { h with firstCodes := table :: h.firstCodes }
        else none
      else if tag.toNat / 16 = 1 then
        readCodes fuel rest { h with otherCodes := table :: h.otherCodes }
      else none
    else none

def samplings : List Nat := [1, 2, 4, 8]

def readComponents : Bytes → Option (List Component)
  | [] => some []
  | id :: sampling :: table :: rest => do
    let others ← readComponents rest
    let across := sampling.toNat / 16
    let down := sampling.toNat % 16
    guard (across ∈ samplings ∧ down ∈ samplings ∧ table < 4)
    return ⟨id, ⟨across, down⟩, table.toNat⟩ :: others
  | _ => none

def longestSide : Nat := 16384

-- The frame header of an image with 8 bits a sample and one or three components; there is only one.
def readFrame (body : Bytes) (h : Header) : Option Header := do
  guard (h.components = [])
  match body with
  | depth :: rest =>
    let (height, rest) ← word? rest
    let (width, rest) ← word? rest
    match rest with
    | count :: rest =>
      let components ← readComponents rest
      guard (depth = 8 ∧ components.length = count.toNat ∧ (count = 1 ∨ count = 3))
      guard (0 < width ∧ width ≤ longestSide ∧ 0 < height ∧ height ≤ longestSide)
      let colours := if count = 1 then .grey else h.colours
      return { h with
        width := width, height := height, components := components, colours := colours }
    | [] => none
  | [] => none

-- Passes over the contents of a segment; those at the end of the file may be cut off.
def skipSegment (bytes : Bytes) : Option Bytes := do
  let (length, rest) ← word? bytes
  guard (2 ≤ length)
  return rest.drop (length - 2)

def streamTag : Bytes := [0x41, 0x56, 0x49, 0x31, 0x00]

-- The segment that tells frames of a camera stream. Its tag is read even where the segment is one
-- byte too short for it.
def readStreamTag (bytes : Bytes) (h : Header) : Option (Header × Bytes) := do
  let (length, rest) ← word? bytes
  guard (2 ≤ length)
  if streamTag.length < length ∧ streamTag.length ≤ rest.length then
    let isStreamed := h.isStreamed || streamTag.isPrefixOf rest
    return ({ h with isStreamed := isStreamed }, rest.drop (max streamTag.length (length - 2)))
  else return (h, rest.drop (length - 2))

-- The bytes `Adobe`.
def transformTag : Bytes := [0x41, 0x64, 0x6F, 0x62, 0x65]

def readTransform (body : Bytes) (h : Header) : Option Header := do
  guard (transformTag.isPrefixOf body)
  match body.drop 11 with
  | transform :: _ =>
    let colours ← match transform.toNat with
      | 0 => some .cmyk
      | 1 | 2 => some .yCbCr
      | _ => none
    return { h with colours := colours }
  | [] => none

def readSegment (marker : Marker) (bytes : Bytes) (h : Header) : Option (Header × Bytes) :=
  let whole (read : Bytes → Header → Option Header) : Option (Header × Bytes) := do
    let (body, rest) ← segment? bytes
    let h ← read body h
    return (h, rest)
  match marker with
  | .quantTables => whole fun body => readQuantTables body.length body
  | .codes => whole fun body => readCodes body.length body
  | .sequentialFrame => whole readFrame
  | .restartInterval => whole fun body h => do
    let (interval, rest) ← word? body
    guard (rest = [])
    return { h with restartInterval := interval }
  | .application 0 => readStreamTag bytes h
  | .application 1 => whole fun _ h => some h
  | .application 2 => whole fun _ h => some h
  | .application 14 => whole readTransform
  | .progressiveFrame | .arithmeticCodes | .lineCount | .ending => none
  | _ => (skipSegment bytes).map fun rest => (h, rest)

-- Reads up to the marker of the first scan; the answer holds the bytes after it. `last` and `read`
-- are those of `nextMarker`.
def readSegments : Nat → UInt8 → Nat → Bytes → Header → Option (Header × Bytes)
  | 0, _, _, _, _ => none
  | fuel + 1, last, read, bytes, h => do
    let (code, read, rest) ← nextMarker last false read bytes
    match Marker.ofCode? code with
    | none => readSegments fuel code 1 (← skipSegment rest) h
    | some marker =>
      guard (read ≤ longestGap)
      if marker = .scan then return (h, rest)
      else
        let (h, rest) ← readSegment marker rest h
        readSegments fuel code 1 rest h

-- The sampling factors of a component. In a grey image they count for nothing.
def Header.sampling (h : Header) (c : Component) : Sampling :=
  if h.colours = .grey then .single else c.sampling

def Header.largestSampling (h : Header) : Sampling :=
  h.components.foldl (fun most c => most.max (h.sampling c)) .single

-- The header with what it leaves unsaid: three components of four inks are red, green and blue, and
-- a camera stream has the typical codes.
def Header.complete (h : Header) : Header :=
  { h with
    colours := if h.components.length = 3 ∧ h.colours = .cmyk then .rgb else h.colours
    firstCodes := h.firstCodes ++ if h.isStreamed then Typical.firstCodes else []
    otherCodes := h.otherCodes ++ if h.isStreamed then Typical.otherCodes else [] }

def Header.read? (bytes : Bytes) : Option (Header × Bytes) :=
  match bytes with
  | 0xFF :: 0xD8 :: rest =>
    (readSegments rest.length 0 0 rest {}).map fun (h, rest) => (h.complete, rest)
  | _ => none

end DayNight.Jpeg
