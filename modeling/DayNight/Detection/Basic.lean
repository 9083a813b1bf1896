import DayNight.Detection.Confidence
import DayNight.Image

namespace DayNight

structure Box where
  classId : UInt32
  confidence : Confidence
  x : Int32
  y : Int32
  w : Int32
  h : Int32
  deriving DecidableEq, Inhabited

-- The objects found in one frame. `frameSequence` is the number under which the frame channel
-- published that frame.
structure Detection where
  boxes : List Box
  takenAt : WallTime
  frameSequence : UInt64
  deriving DecidableEq, Inhabited

def Detection.skewFrom (detection : Detection) (frame : Frame) : Duration :=
  detection.takenAt.distance frame.takenAt

namespace Box

-- More confident boxes first; boxes of equal confidence keep their order.
def byConfidence (boxes : List Box) : List Box :=
  boxes.mergeSort fun a b => b.confidence.rank ≤ a.confidence.rank

-- All boxes as they are if there are no more than `limit`, else the most confident.
def keepBest (limit : Nat) (boxes : List Box) : List Box :=
  if limit < boxes.length then (byConfidence boxes).take limit else boxes

end Box

structure DetectorError where
  text : String
  deriving DecidableEq, Repr

def DetectorError.message (e : DetectorError) : String := "inference failed: " ++ e.text

end DayNight
