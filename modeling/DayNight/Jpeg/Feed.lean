import DayNight.Jpeg.Code
import DayNight.Jpeg.Marker

namespace DayNight.Jpeg

-- Some bits are held ahead of their use, and four bytes more are taken when they become few. More
-- may be used than are there: then the window gives zeros, or ones that were used before, and the
-- count of the bits that are there goes below zero, which is a large count, so that no more are
-- taken until the feed is reset.
structure Feed where
  -- The bytes taken last, as one number.
  taken : UInt64
  -- The bits to come, the first one highest.
  window : UInt64
  -- How many bits there are in the window, modulo 256.
  ready : UInt8
  rest : Bytes
  marker : Option Marker
  ended : Bool

namespace Feed

def start (bytes : Bytes) : Feed := ⟨0, 0, 0, bytes, none, false⟩

def low : UInt8 := 32

-- Moves the bytes taken last into the window, without the bits of them that are used.
def align (f : Feed) : Feed := { f with window := f.taken <<< (64 - f.ready.toUInt64) }

-- Takes a byte, which comes into the window when the feed is aligned.
def take (b : UInt8) (rest : Bytes) (f : Feed) : Feed :=
  { f with taken := f.taken <<< 8 ||| b.toUInt64, ready := f.ready + 8, rest := rest }

def pad (f : Feed) : Feed := { f with taken := f.taken <<< 32, ready := f.ready + 32 }.align

-- Stops at a marker; one without meaning only keeps the feed from taking more this time. At the end
-- of the image zeros follow.
def stop (code : UInt8) (rest : Bytes) (f : Feed) : Feed :=
  let aligned := if f.ready = 0 then f else f.align
  let stopped := { aligned with rest := rest, marker := Marker.ofCode? code }
  if stopped.marker = some .ending ∧ stopped.ready < low then stopped.pad else stopped

-- Takes so many bytes, without the zeros stuffed after bytes of ones.
def takeBytes : Nat → Feed → Feed
  | 0, f => f.align
  | count + 1, f =>
    match f.rest with
    | [] => takeBytes count (f.take 0 [])
    | b :: rest =>
      if b ≠ ones then takeBytes count (f.take b rest)
      else
        match rest.dropWhile (· = ones) with
        | [] => takeBytes count (f.take ones [])
        | code :: rest =>
          if code = 0 then takeBytes count (f.take ones rest) else f.stop code rest

def fill (f : Feed) : Feed :=
  if low ≤ f.ready then f
  else if f.marker.isSome ∨ f.ended then f.pad
  else takeBytes 4 f

def symbol? (table : List Codeword) (f : Feed) : Option (UInt8 × Feed) :=
  (table.find? (·.begins f.window)).map fun word =>
    let window := f.window <<< UInt64.ofNat word.length
    (word.symbol, { f with window := window, ready := f.ready - UInt8.ofNat word.length })

-- The number in the next `count` bits. They go to the low end of the window.
def number (count : Nat) (f : Feed) : Nat × Feed :=
  if count = 0 then (0, f)
  else
    let window := f.window <<< UInt64.ofNat count ||| f.window >>> UInt64.ofNat (64 - count)
    let ready := f.ready - UInt8.ofNat count
    (window.toNat % (1 <<< count), { f with window := window, ready := ready })

def reset (f : Feed) : Feed := { f with taken := 0, window := 0, ready := 0, marker := none }

-- The next marker with a meaning that is followed by its code, and the bytes after it.
def findMarker : Bytes → Option (Marker × Bytes)
  | [] => none
  | b :: rest =>
    if b = ones then
      match rest.dropWhile (· = ones) with
      | [] => none
      | code :: after =>
        match Marker.ofCode? code with
        | some marker => some (marker, after)
        | none => findMarker rest
    else findMarker rest

-- Goes on to the next marker, if the feed does not stand at one and the image has not ended. The
-- bits that are held stay.
def seek (f : Feed) : Option Feed :=
  if f.marker.isSome ∨ f.ended then some f
  else (findMarker f.rest).map fun (marker, rest) => { f with rest := rest, marker := some marker }

end Feed

end DayNight.Jpeg
