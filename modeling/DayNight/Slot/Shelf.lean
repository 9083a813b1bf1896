import DayNight.Slot.Basic

namespace DayNight

-- A file of some length, and what processes see of it that have it mapped. They see whole pages:
-- what they store behind the end of the file, up to the end of its last page, stays there, although
-- it does not belong to the file.
structure SlotFile where
  length : Nat
  memory : Slot
  deriving DecidableEq, Repr, Inhabited

namespace SlotFile

def pageLength : Nat := 4096

-- The length of the pages for so many bytes; there is at least one.
def mappedLength (length : Nat) : Nat := max 1 ((length + pageLength - 1) / pageLength) * pageLength

-- A file of the given length whose pages begin with the given bytes.
def ofMemory (length : Nat) (bytes : Bytes) : SlotFile :=
  let missing := mappedLength length - bytes.length
  ⟨length, (Slot.ofBytes? (bytes ++ List.replicate missing 0)).getD default⟩

def ofBytes (bytes : Bytes) : SlotFile := ofMemory bytes.length bytes

def ofSlot (s : Slot) : SlotFile :=
  let missing := mappedLength s.fileLength - s.fileLength
  ⟨s.fileLength, { s with record := s.record ++ Array.replicate missing 0 }⟩

def toBytes (file : SlotFile) : Bytes := file.memory.toBytes.take file.length

-- What the file holds by itself, if it is long enough for a slot's header.
def slot? (file : SlotFile) : Option Slot :=
  if file.length < Slot.headerLength then none
  else
    let recordRoom := file.length - Slot.headerLength
    some { file.memory with record := file.memory.record.extract 0 recordRoom }

-- The file after a process that has it mapped has changed the slot that it sees; its length stays.
def update (file : SlotFile) (s : Slot) : SlotFile := { file with memory := s }

-- The file with the bytes from `offset` on replaced; it grows as far as they reach, with zeros
-- between its old end and the first of them.
def write (file : SlotFile) (offset : Nat) (new : Bytes) : SlotFile :=
  if new = [] then file
  else
    let length := max file.length (offset + new.length)
    let seen := file.memory.toBytes
    let seen := seen ++ List.replicate (mappedLength length - seen.length) 0
    let zeros := List.replicate (offset - file.length) 0
    ofMemory length (Bytes.overwrite (Bytes.overwrite seen file.length zeros) offset new)

end SlotFile

-- A directory with slot files in it. No directory lies below it.
structure Shelf where
  files : List (String × SlotFile)
  deriving Inhabited

namespace Shelf

def empty : Shelf := ⟨[]⟩

inductive Place
  | file (name : String)
  | fault (fault : FileFault)
  deriving DecidableEq, Repr

def get? (shelf : Shelf) (name : String) : Option SlotFile := shelf.files.lookup name

def put (shelf : Shelf) (name : String) (file : SlotFile) : Shelf :=
  ⟨(name, file) :: shelf.files.filter fun entry => entry.1 ≠ name⟩

inductive Purpose
  | opening
  -- To create a file, or to open the one that is there.
  | creating
  deriving DecidableEq, Repr

def longestName : Nat := 255

-- A path takes fewer bytes.
def pathLimit : Nat := 4096

def isStay (part : String) : Bool := part = "" || part = "."

-- Where something of that name is entered or opened as a directory. No file is one, and no
-- directory lies on the shelf.
def enter (shelf : Shelf) (name : String) : FileFault :=
  if longestName < name.utf8ByteSize then .nameTooLong
  else if (shelf.get? name).isSome then .notDirectory
  else .notFound

-- Where the parts of a path lead. A stroke at the end asks for a directory, which cannot be created
-- as a file.
def locateParts (shelf : Shelf) (purpose : Purpose) : List String → Place
  | [] => .fault .isDirectory
  | part :: rest =>
    if isStay part then locateParts shelf purpose rest
    else if part = ".." ∧ rest.all isStay then .fault .isDirectory
    else if rest = [] then
      if longestName < part.utf8ByteSize then .fault .nameTooLong else .file part
    else if purpose = .creating ∧ rest.all (· = "") then .fault .isDirectory
    else .fault (shelf.enter part)

def locate (shelf : Shelf) (purpose : Purpose) (path : String) : Place :=
  if path.toList.contains '\x00' then .fault .zeroByte
  else if pathLimit ≤ path.utf8ByteSize then .fault .nameTooLong
  else shelf.locateParts purpose (path.splitOn "/")

def find (shelf : Shelf) (path : String) : Except FileFault (String × SlotFile) :=
  match shelf.locate .opening path with
  | .fault fault => .error fault
  | .file name =>
    match shelf.get? name with
    | some file => .ok (name, file)
    | none => .error .notFound

-- Creates the slot file at the path, or empties the one that is there. The answer is the file's
-- name and the new slot.
def create (shelf : Shelf) (path : String) (kind : UInt16) (capacity : UInt64) :
    Except ChannelError (String × Slot) × Shelf :=
  match shelf.locate .creating path with
  | .fault fault => (.error (.file fault), shelf)
  | .file name =>
    -- The file is emptied before it gets its length.
    let emptied := shelf.put name (.ofBytes [])
    match Word.add 64 capacity with
    | .error o => (.error (.overflow o), emptied)
    | .ok length =>
      if 0x8000000000000000 ≤ length.toNat then (.error (.file .tooLong), emptied)
      else
        let s := Slot.empty kind capacity
        (.ok (name, s), shelf.put name (.ofSlot s))

def attach (shelf : Shelf) (path shown : String) (kind : UInt16) :
    Except ChannelError (String × Slot.Handle × Slot) :=
  match shelf.find path with
  | .error fault => .error (.file fault)
  | .ok (name, file) =>
    match file.slot? with
    | none => .error ((Slot.Mismatch.shortFile file.length).error shown)
    | some s =>
      match s.attach kind with
      | .error mismatch => .error (mismatch.error shown)
      | .ok handle => .ok (name, handle, s)

end Shelf

end DayNight
