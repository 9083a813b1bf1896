import DayNight.Bytes

namespace DayNight.Jpeg

-- What a marker announces. Markers with other codes have no meaning here.
inductive Marker
  | sequentialFrame
  | progressiveFrame
  | codes
  | arithmeticCodes
  | restart
  | beginning
  | ending
  | scan
  | quantTables
  | lineCount
  | restartInterval
  | application (n : Nat)
  | comment
  deriving DecidableEq, Repr

namespace Marker

def ofCode? (code : UInt8) : Option Marker :=
  match code.toNat with
  | 0xC0 => some sequentialFrame
  | 0xC1 => some sequentialFrame
  | 0xC2 => some progressiveFrame
  | 0xC4 => some codes
  | 0xCC => some arithmeticCodes
  | 0xD8 => some beginning
  | 0xD9 => some ending
  | 0xDA => some scan
  | 0xDB => some quantTables
  | 0xDC => some lineCount
  | 0xDD => some restartInterval
  | 0xE0 => some (application 0)
  | 0xE1 => some (application 1)
  | 0xE2 => some (application 2)
  | 0xED => some (application 13)
  | 0xEE => some (application 14)
  | 0xFE => some comment
  | n => if 0xD0 ≤ n ∧ n ≤ 0xD7 then some restart else none

end Marker

def ones : UInt8 := 0xFF

-- The code of the next marker, how many bytes were read before it, and what follows. `last` is the
-- byte before and `read` how many there were. Bytes of ones and zeros may fill the place between
-- the ones of a marker and its code, and do not count; `filling` says that such a byte was the
-- last.
def nextMarker (last : UInt8) (filling : Bool) (read : Nat) : Bytes → Option (UInt8 × Nat × Bytes)
  | [] => none
  | b :: rest =>
    if (filling ∨ last = ones) ∧ (b = ones ∨ b = 0) then nextMarker b true read rest
    else if last = ones then some (b, read, rest)
    else nextMarker b false (read + 1) rest

-- How many bytes may be read before a marker, with its ones and the code of the marker before.
def longestGap : Nat := 3

end DayNight.Jpeg
