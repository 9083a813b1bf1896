import DayNight.Word

namespace DayNight

inductive FileFault
  | notFound
  | isDirectory
  | notDirectory
  | nameTooLong
  | zeroByte
  -- The length of the file does not fit 63 bits.
  | tooLong
  deriving DecidableEq, Repr

def FileFault.message : FileFault → String
  | notFound => "No such file or directory (os error 2)"
  | isDirectory => "Is a directory (os error 21)"
  | notDirectory => "Not a directory (os error 20)"
  | nameTooLong => "File name too long (os error 36)"
  | zeroByte => "file name contained an unexpected NUL byte"
  | tooLong => "out of range integral type conversion attempted"

inductive ChannelError
  | payloadTooLarge (length capacity : Nat)
  | incompatible (detail : String)
  | corrupt (detail : String)
  | file (fault : FileFault)
  -- The program breaks off.
  | overflow (o : Overflow)
  deriving DecidableEq, Repr

def ChannelError.message : ChannelError → String
  | payloadTooLarge length capacity =>
    "record of " ++ toString length ++ " bytes exceeds slot capacity of " ++ toString capacity
      ++ " bytes"
  | incompatible detail => "shared slot is incompatible: " ++ detail
  | corrupt detail => "shared slot record is corrupt: " ++ detail
  | file fault => fault.message
  | overflow o => o.message

end DayNight
