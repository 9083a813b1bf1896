import DayNight.Detection.Basic

namespace DayNight

-- It sees one box of a quarter of the frame's size that walks from left to right as frames go by,
-- and cycles through the classes.
structure WalkingDetector where
  classes : UInt32
  latency : Duration
  deriving DecidableEq, Repr

namespace WalkingDetector

def new (classes : UInt32) (latency : Duration) : WalkingDetector := ⟨max classes 1, latency⟩

def standard : WalkingDetector := new 3 Duration.zero

def quarter (side : Int32) : Int32 := max (side / 4) 1

-- How many places the box can take from left to right.
def positions (width : Int32) : UInt64 := (max (width - quarter width + 1) 1).toInt64.toUInt64

-- 0.9 in single precision.
def confidence : Confidence := ⟨0x3f666666⟩

-- Sides of `2 ^ 31` and more count as negative, so such a frame has no pixels either.
def infer (d : WalkingDetector) (width height : UInt32) (sequence : UInt64) :
    Except DetectorError (List Box) :=
  let width := width.toInt32
  let height := height.toInt32
  if width ≤ 0 ∨ height ≤ 0 then
    .error ⟨"frame " ++ toString sequence.toNat ++ " has no pixels"⟩
  else
    let h := quarter height
    .ok [{
      classId := (sequence % d.classes.toUInt64).toUInt32
      confidence := confidence
      x := (sequence % positions width).toInt64.toInt32
      y := (height - h) / 2
      w := quarter width
      h := h }]

end WalkingDetector

end DayNight
