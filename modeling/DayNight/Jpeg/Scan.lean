import DayNight.Jpeg.Feed
import DayNight.Jpeg.Header

namespace DayNight.Jpeg

-- A component as a scan header names it: its place among the components of the image, and the
-- numbers of its code tables.
structure ScanComponent where
  place : Nat
  firstCodes : Nat
  otherCodes : Nat

structure CodedComponent where
  place : Nat
  blocks : Nat
  quant : Int32
  firstCodes : List Codeword
  otherCodes : List Codeword

def ScanComponent.coded? (h : Header) (c : ScanComponent) : Option CodedComponent := do
  let component ← h.components[c.place]?
  let quant ← h.quantTables.lookup component.quantTable
  let firstCodes ← h.firstCodes.lookup c.firstCodes
  let otherCodes ← h.otherCodes.lookup c.otherCodes
  return ⟨c.place, (h.sampling component).blocks, Int32.ofNat quant, firstCodes, otherCodes⟩

-- So many components of a scan header; `seen` are the names before.
def scanComponents? (h : Header) :
    Nat → List UInt8 → Bytes → Option (List ScanComponent × Bytes)
  | 0, _, bytes => some ([], bytes)
  | count + 1, seen, id :: tables :: rest => do
    guard (id ∉ seen)
    let place ← h.components.findIdx? fun c => c.id = id
    let (others, rest) ← scanComponents? h count (id :: seen) rest
    return (⟨place, tables.toNat / 16, tables.toNat % 16⟩ :: others, rest)
  | _, _, _ => none

def lastCoefficient : Nat := 63

def largestShift : Nat := 13

-- A scan header after its marker, and the bytes of the scan. The tables that it names need not be
-- there until the scan is read.
def scanHeader? (h : Header) (bytes : Bytes) : Option (List ScanComponent × Bytes) := do
  let (length, rest) ← word? bytes
  match rest with
  | count :: rest =>
    guard (length = 6 + 2 * count.toNat ∧ 1 ≤ count ∧ count ≤ 4)
    let (cs, rest) ← scanComponents? h count.toNat [] rest
    match rest with
    | first :: last :: shifts :: rest =>
      guard (first.toNat ≤ lastCoefficient ∧ last.toNat ≤ lastCoefficient)
      guard (shifts.toNat / 16 ≤ largestShift ∧ shifts.toNat % 16 ≤ largestShift)
      return (cs, rest)
    | _ => none
  | [] => none

-- The signed number that `size` bits stand for: the lower half of the range is negative.
def signed (size n : Nat) : Int :=
  if size = 0 then 0
  else if n < 1 <<< (size - 1) then (n : Int) - ((1 <<< size : Nat) - 1)
  else n

-- Passes over the remaining coefficients of a block, of which so many runs of sixteen are left;
-- none if one is not zero. A code without a value ends the block unless it is a run.
def skipOthers (table : List Codeword) : Nat → Feed → Option Feed
  | 0, feed => some feed
  | runs + 1, feed => do
    let (symbol, feed) ← feed.fill.symbol? table
    guard (symbol.toNat % 16 = 0)
    if symbol = 0xF0 then skipOthers table runs feed else return feed

-- One block: its first coefficient, as the sum of `before` and a difference.
def readBlock (c : CodedComponent) (before : Int32) (feed : Feed) : Option (Int32 × Feed) := do
  let (size, feed) ← feed.fill.symbol? c.firstCodes
  let (n, feed) := feed.number size.toNat
  let feed ← skipOthers c.otherCodes 4 feed
  return (before + Int32.ofInt (signed size.toNat n), feed)

-- The sample value of a flat block: an eighth of its coefficient, a half goes up.
def sampleOf (quant coefficient : Int32) : UInt8 :=
  let value := (coefficient * quant + 4 + 8 * 128) >>> 3
  if value < 0 then 0 else if 255 < value then 255 else UInt8.ofNat value.toInt.toNat

-- A unit: for every component of the scan the samples of its blocks.
abbrev CodedUnit := List (List UInt8)

structure Progress where
  feed : Feed
  -- The last coefficient of each component of the image.
  lasts : List Int32
  untilRestart : Nat

namespace Progress

def start (h : Header) (bytes : Bytes) : Progress :=
  ⟨.start bytes, List.replicate h.components.length 0, h.restartInterval⟩

def blocks (c : CodedComponent) : Nat → Progress → Option (List UInt8 × Progress)
  | 0, p => some ([], p)
  | count + 1, p => do
    let (value, feed) ← readBlock c (p.lasts[c.place]?.getD 0) p.feed
    let p := { p with feed := feed, lasts := p.lasts.set c.place value }
    let (samples, p) ← blocks c count p
    return (sampleOf c.quant value :: samples, p)

def unit : List CodedComponent → Progress → Option (CodedUnit × Progress)
  | [], p => some ([], p)
  | c :: cs, p => do
    let (samples, p) ← p.blocks c c.blocks
    let (others, p) ← unit cs p
    return (samples :: others, p)

-- What happens where a restart is due. At a restart marker the feed and the coefficients start
-- anew; at the end of the image nothing happens.
def restart (h : Header) (p : Progress) : Option Progress := do
  let feed ← p.feed.seek
  let p := { p with feed := feed, untilRestart := h.restartInterval }
  match feed.marker with
  | some .restart => return { p with feed := feed.reset, lasts := p.lasts.map fun _ => 0 }
  | some .ending => return p
  | some _ => none
  | none => return p

def row (h : Header) (cs : List CodedComponent) :
    Nat → Progress → Option (List CodedUnit × Progress)
  | 0, p => some ([], p)
  | count + 1, p => do
    let (samples, p) ← p.unit cs
    let p ←
      if h.restartInterval ≠ 0 ∧ p.untilRestart ≤ 1 then p.restart h
      else some { p with untilRestart := p.untilRestart - 1 }
    let (others, p) ← row h cs count p
    return (samples :: others, p)

inductive Next
  | row (p : Progress)
  | scan (cs : List ScanComponent) (p : Progress)

-- Heeds the marker at which the feed stands after a row. Between scans there may be no tables.
def next (h : Header) (p : Progress) : Option Next :=
  match p.feed.marker with
  | none => some (.row p)
  | some .restart => some (.row p)
  | some .ending => some (.row { p with feed := { p.feed with marker := none, ended := true } })
  | some .scan =>
    (scanHeader? h p.feed.rest).map fun (cs, rest) =>
      .scan cs { p with feed := { p.feed.reset with rest := rest } }
  | some _ => none

-- So many rows of so many units, and the scan that follows if the rows stop before their end.
def rows (h : Header) (cs : List CodedComponent) (width : Nat) :
    Nat → Progress → Option (List (List CodedUnit) × Option (List ScanComponent × Progress))
  | 0, _ => some ([], none)
  | count + 1, p => do
    let (units, p) ← p.row h cs width
    match ← p.next h with
    | .scan cs p => return ([units], some (cs, p))
    | .row p =>
      let (others, following) ← rows h cs width count p
      return (units :: others, following)

end Progress

end DayNight.Jpeg
