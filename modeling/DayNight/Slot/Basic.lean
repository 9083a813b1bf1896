import DayNight.Channel.Error
import DayNight.Record.Basic

namespace DayNight

-- What a slot file of at least 64 bytes holds.
structure Slot where
  magic : UInt32
  version : UInt16
  kind : UInt16
  capacity : UInt64
  -- Odd while a record is being written, and zero before the first.
  generation : UInt64
  -- The number of the record's publication.
  sequence : UInt64
  recordLength : UInt64
  unused : Bytes
  record : Array UInt8
  deriving DecidableEq, Repr, Inhabited

namespace Slot

def headerLength : Nat := 64

-- The bytes `PCS1`, as a number.
def magicNumber : UInt32 := 0x31534350

def currentVersion : UInt16 := 1

-- A header of 64 bytes, and the record.
def toBytes (s : Slot) : Bytes :=
  Bytes.ofNat 4 s.magic.toNat
    ++ Bytes.ofNat 2 s.version.toNat
    ++ Bytes.ofNat 2 s.kind.toNat
    ++ Bytes.ofNat 8 s.capacity.toNat
    ++ Bytes.ofNat 8 s.generation.toNat
    ++ Bytes.ofNat 8 s.sequence.toNat
    ++ Bytes.ofNat 8 s.recordLength.toNat
    ++ s.unused
    ++ s.record.toList

def ofBytes? (bytes : Bytes) : Option Slot :=
  if bytes.length < headerLength then none
  else
    some {
      magic := UInt32.ofNat (bytes.number 0 4)
      version := UInt16.ofNat (bytes.number 4 2)
      kind := UInt16.ofNat (bytes.number 6 2)
      capacity := UInt64.ofNat (bytes.number 8 8)
      generation := UInt64.ofNat (bytes.number 16 8)
      sequence := UInt64.ofNat (bytes.number 24 8)
      recordLength := UInt64.ofNat (bytes.number 32 8)
      unused := bytes.slice 40 24
      record := (bytes.drop headerLength).toArray }

def fileLength (s : Slot) : Nat := headerLength + s.record.size

-- A process's access to a slot: how long a record may be, and the number of the last publication
-- that it knows of.
structure Handle where
  capacity : UInt64
  sequence : UInt64
  deriving DecidableEq, Repr, Inhabited

def empty (kind : UInt16) (capacity : UInt64) : Slot where
  magic := magicNumber
  version := currentVersion
  kind := kind
  capacity := capacity
  generation := 0
  sequence := 0
  recordLength := 0
  unused := List.replicate 24 0
  record := Array.replicate capacity.toNat 0

def Handle.creator (capacity : UInt64) : Handle := ⟨capacity, 0⟩

inductive Mismatch
  | shortFile (length : Nat)
  | notSlot
  | wrongKind (found expected : UInt16)
  | shortRecord (declared present : Nat)
  -- The length that the slot says does not fit a machine word, and is compared with nothing.
  | overflow (o : Overflow)
  deriving DecidableEq, Repr

def Mismatch.error (file : String) : Mismatch → ChannelError
  | shortFile length =>
    .incompatible (file ++ " is " ++ toString length ++ " bytes, shorter than the slot header")
  | notSlot =>
    .incompatible (file ++ " is not a v" ++ toString currentVersion.toNat ++ " slot file")
  | wrongKind found expected =>
    .incompatible (file ++ " holds record kind " ++ toString found.toNat ++ ", expected "
      ++ toString expected.toNat)
  | shortRecord declared present =>
    .incompatible (file ++ " declares " ++ toString declared ++ " payload bytes but maps only "
      ++ toString present)
  | overflow o => .overflow o

-- Attaches to a slot for records of the given kind.
def attach (kind : UInt16) (s : Slot) : Except Mismatch Handle :=
  if s.magic ≠ magicNumber ∨ s.version ≠ currentVersion then .error .notSlot
  else if s.kind ≠ kind then .error (.wrongKind s.kind kind)
  else
    match Word.add 64 s.capacity with
    | .error o => .error (.overflow o)
    | .ok length =>
      if s.fileLength < length.toNat then
        .error (.shortRecord s.capacity.toNat s.record.size)
      else .ok ⟨s.capacity, s.sequence⟩

end Slot

end DayNight
