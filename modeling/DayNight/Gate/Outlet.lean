import DayNight.Gate

namespace DayNight

structure Outlet where
  gate : Gate
  frames : FrameChannel
  detections : DetectionChannel
  deriving Inhabited

namespace Outlet

inductive Action
  | offer (camera : Camera) (frame : Frame)
  | publish (detection : Detection)
  -- A frame that is not tied to a camera.
  | publishFrame (frame : Frame)
  | switchTo (camera : Camera) (warmup : UInt32)
  | close

inductive Answer
  | offered (outcome : Except ChannelError GateOutcome)
  | published (outcome : Except ChannelError (Option UInt64))
  | done

def step (o : Outlet) : Action → Answer × Outlet
  | .offer camera frame =>
    let (outcome, gate, frames) := o.gate.publish camera frame o.frames
    (.offered outcome, { o with gate := gate, frames := frames })
  | .publish detection =>
    let (outcome, detections) := o.gate.publishIfOpen detection o.detections
    (.published outcome, { o with detections := detections })
  | .publishFrame frame =>
    let (outcome, frames) := o.gate.publishIfOpen frame o.frames
    (.published outcome, { o with frames := frames })
  | .switchTo camera warmup => (.done, { o with gate := o.gate.switchTo camera warmup })
  | .close => (.done, { o with gate := o.gate.close })

def run (o : Outlet) : List Action → List Answer × Outlet
  | [] => ([], o)
  | action :: actions =>
    let (answer, o) := o.step action
    let (answers, o) := o.run actions
    (answer :: answers, o)

end Outlet

end DayNight
