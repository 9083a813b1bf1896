import DayNight.Luma

namespace DayNight

inductive SourceError
  | opening (device reason : String)
  | readTimeout (limit : Duration)
  | reading (reason : String)
  deriving DecidableEq, Repr

def SourceError.message : SourceError → String
  | opening device reason => "failed to open camera " ++ device ++ ": " ++ reason
  | readTimeout limit => "no frame within " ++ limit.text
  | reading reason => "frame read failed: " ++ reason

def SourceError.openTimeout (device : String) (limit : Duration) : SourceError :=
  opening device ("open did not complete within " ++ limit.text)

-- The brightness of an image that was read; an image without brightness counts as a failed read.
def SourceError.peek (jpeg : JpegDecoder) (read : Except SourceError Image) :
    Except Overflow (Except SourceError Float) :=
  match read with
  | .error e => .ok (.error e)
  | .ok image =>
    match image.luma jpeg with
    | .ok value => .ok (.ok value)
    | .error (.overflow o) => .error o
    | .error e => .ok (.error (.reading e.message))

end DayNight
