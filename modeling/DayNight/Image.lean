import DayNight.Bytes
import DayNight.Camera
import DayNight.Duration

namespace DayNight

inductive PixelFormat
  | gray8
  | rgb24
  | bgr24
  | yuyv4
  | mjpeg
  | nv12
  deriving DecidableEq, Repr, Inhabited

namespace PixelFormat

def all : List PixelFormat := [gray8, rgb24, bgr24, yuyv4, mjpeg, nv12]

def name : PixelFormat → String
  | gray8 => "Gray8"
  | rgb24 => "Rgb24"
  | bgr24 => "Bgr24"
  | yuyv4 => "Yuyv4"
  | mjpeg => "Mjpeg"
  | nv12 => "Nv12"

def code : PixelFormat → UInt8
  | gray8 => 0
  | rgb24 => 1
  | bgr24 => 2
  | yuyv4 => 3
  | mjpeg => 4
  | nv12 => 5

def ofCode? (n : UInt8) : Option PixelFormat :=
  all.find? fun format => format.code == n

@[simp] theorem ofCode?_code (format : PixelFormat) : ofCode? format.code = some format := by
  cases format <;> rfl

end PixelFormat

-- An image before the pipeline stamps it. The data need not fit the stated size.
structure Image where
  data : Bytes
  width : UInt32
  height : UInt32
  format : PixelFormat
  deviceTime : Option Duration
  deriving DecidableEq, Repr, Inhabited

-- A stamped image. `sequence` counts the images of one camera.
structure Frame where
  image : Image
  camera : Camera
  sequence : UInt64
  takenAt : WallTime
  deriving DecidableEq, Repr, Inhabited

-- The time since capture; zero if the frame is from the future.
def Frame.age (frame : Frame) (now : WallTime) : Duration := now.since frame.takenAt

end DayNight
