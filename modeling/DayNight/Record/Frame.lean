import DayNight.Image
import DayNight.Record.Basic
import DayNight.Word

namespace DayNight

-- A point of wall-clock time in 64 bits. One before 1970 is stored as the beginning of 1970; later
-- points than fit lose their high bits.
def WallTime.stored (t : WallTime) : Nat :=
  if t.nanos < 0 then 0 else t.nanos.toNat % UInt64.size

-- Stands for a missing device time.
def noDeviceTime : Nat := UInt64.size - 1

namespace Frame

def headerLength : Nat := 40

-- The length of a record with so many bytes of image data.
def encodedCapacity (pixelBytes : UInt64) : Except Overflow UInt64 := Word.add 40 pixelBytes

theorem encodedCapacity_eq_ok {pixelBytes capacity : UInt64} :
    encodedCapacity pixelBytes = .ok capacity ↔ capacity.toNat = 40 + pixelBytes.toNat :=
  Word.add_eq_ok

def storedDeviceTime (frame : Frame) : Nat :=
  match frame.image.deviceTime with
  | some d => d.nanos % UInt64.size
  | none => noDeviceTime

def encode (frame : Frame) : Bytes :=
  Bytes.ofNat 8 frame.sequence.toNat
    ++ Bytes.ofNat 8 frame.takenAt.stored
    ++ Bytes.ofNat 8 frame.storedDeviceTime
    ++ Bytes.ofNat 4 frame.image.width.toNat
    ++ Bytes.ofNat 4 frame.image.height.toNat
    ++ [frame.camera.index, frame.image.format.code, 0, 0]
    ++ Bytes.ofNat 4 frame.image.data.length
    ++ frame.image.data

def decode (bytes : Bytes) : Except RecordFault Frame :=
  if bytes.length < headerLength then .error (.shortFrame bytes.length)
  else
    match Camera.ofIndex? (UInt8.ofNat (bytes.number 32 1)) with
    | none => .error .unknownCamera
    | some camera =>
      match PixelFormat.ofCode? (UInt8.ofNat (bytes.number 33 1)) with
      | none => .error .unknownFormat
      | some format =>
        let claimed := bytes.number 36 4
        let present := bytes.length - headerLength
        if present < claimed then .error (.missingData claimed present)
        else
          let device := bytes.number 16 8
          .ok {
            image := {
              data := bytes.slice headerLength claimed
              width := UInt32.ofNat (bytes.number 24 4)
              height := UInt32.ofNat (bytes.number 28 4)
              format := format
              deviceTime := if device = noDeviceTime then none else some ⟨device⟩ }
            camera := camera
            sequence := UInt64.ofNat (bytes.number 0 8)
            takenAt := ⟨bytes.number 8 8⟩ }

end Frame

instance : Record Frame where
  kind := 1
  encodedLength frame := Frame.headerLength + frame.image.data.length
  encode := Frame.encode
  decode := Frame.decode

end DayNight
