import DayNight.Bytes

namespace DayNight

inductive RecordFault
  | shortFrame (length : Nat)
  | unknownCamera
  | unknownFormat
  | missingData (claimed present : Nat)
  | shortDetection (length : Nat)
  | missingBoxes (claimed present : Nat)
  deriving DecidableEq, Repr

def RecordFault.detail : RecordFault → String
  | shortFrame length => "frame record of " ++ toString length ++ " bytes"
  | unknownCamera => "unknown camera"
  | unknownFormat => "unknown pixel format"
  | missingData claimed present =>
    "frame claims " ++ toString claimed ++ " data bytes, " ++ toString present ++ " present"
  | shortDetection length => "detection record of " ++ toString length ++ " bytes"
  | missingBoxes claimed present =>
    "detection claims " ++ toString claimed ++ " boxes in " ++ toString present ++ " bytes"

class Record (α : Type) where
  kind : UInt16
  encodedLength : α → Nat
  encode : α → Bytes
  -- Reads a record at the start of the bytes and ignores what follows it.
  decode : Bytes → Except RecordFault α

-- Writes the bytes of the record over the start of `buffer`.
def Record.encodeInto {α : Type} [Record α] (value : α) (buffer : Bytes) : Bytes :=
  buffer.overwrite 0 (encode value)

end DayNight
