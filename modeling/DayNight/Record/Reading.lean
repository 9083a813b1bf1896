import DayNight.Channel.Error
import DayNight.Record.Detection

namespace DayNight

-- A reading that has the bytes before it which are still to be read.
abbrev Cursor := StateT Bytes Option

namespace Cursor

-- The next bytes, so many of them. There is nothing past the end.
def take (width : Nat) : Cursor Bytes := fun bytes =>
  if width ≤ bytes.length then some (bytes.take width, bytes.drop width) else none

def number (width : Nat) : Cursor Nat := Bytes.toNat <$> take width

def remaining : Cursor Nat := List.length <$> get

end Cursor

open Cursor

-- What does not follow the format is reported as corrupt.
def RecordFault.error (fault : RecordFault) : ChannelError := .corrupt fault.detail

def Frame.read : Cursor (Except ChannelError Frame) := do
  let length ← remaining
  if length < headerLength then return .error (RecordFault.shortFrame length).error
  let sequence ← number 8
  let takenAt ← number 8
  let device ← number 8
  let width ← number 4
  let height ← number 4
  match Camera.ofIndex? (.ofNat (← number 1)) with
  | none => return .error RecordFault.unknownCamera.error
  | some camera =>
    match PixelFormat.ofCode? (.ofNat (← number 1)) with
    | none => return .error RecordFault.unknownFormat.error
    | some format =>
      let _ ← take 2
      let claimed ← number 4
      let present ← remaining
      if present < claimed then
        return .error (RecordFault.missingData claimed present).error
      let data ← take claimed
      return .ok {
        image := {
          data := data
          width := .ofNat width
          height := .ofNat height
          format := format
          deviceTime := if device = noDeviceTime then none else some ⟨device⟩ }
        camera := camera
        sequence := .ofNat sequence
        takenAt := ⟨takenAt⟩ }

namespace Box

def read : Cursor Box := do
  let classId ← number 4
  let confidence ← number 4
  let x ← number 4
  let y ← number 4
  let w ← number 4
  let h ← number 4
  return {
    classId := .ofNat classId
    confidence := ⟨.ofNat confidence⟩
    x := (UInt32.ofNat x).toInt32
    y := (UInt32.ofNat y).toInt32
    w := (UInt32.ofNat w).toInt32
    h := (UInt32.ofNat h).toInt32 }

def readMany : Nat → Cursor (List Box)
  | 0 => return []
  | count + 1 => do
    let box ← read
    let boxes ← readMany count
    return box :: boxes

end Box

def Detection.read : Cursor (Except ChannelError Detection) := do
  let length ← remaining
  if length < headerLength then return .error (RecordFault.shortDetection length).error
  let takenAt ← number 8
  let frameSequence ← number 8
  let claimed ← number 4
  let _ ← take 4
  let present ← remaining
  if present < claimed * Box.recordLength then
    return .error (RecordFault.missingBoxes claimed present).error
  let boxes ← Box.readMany claimed
  return .ok ⟨boxes, ⟨takenAt⟩, .ofNat frameSequence⟩

end DayNight
