import DayNight.Claim
import DayNight.Gate
import DayNight.Pipeline.Stopping
import DayNight.Pipeline.Thread

namespace DayNight.Pipeline

-- Who holds the controller for longer than one step.
inductive Holder
  -- A caller whose command asks for a switch that is not handed on yet.
  | caller (transition : Transition)
  | control
  deriving DecidableEq, Repr

structure State where
  jpeg : JpegDecoder
  config : Config
  frames : FrameChannel
  detections : DetectionChannel
  gate : Gate
  controller : Controller
  lock : Option Holder
  claims : Claims
  -- Devices that a switch has opened for the camera that becomes active.
  handoff : PerCamera (Option Handle)
  requests : List Transition
  stop : StopSignal
  devices : Devices
  captures : PerCamera CaptureThread
  detector : DetectorThread
  control : ControlThread
  owner : OwnerPhase

namespace State

def new (jpeg : JpegDecoder) (config : Config) (frames : FrameChannel)
    (detections : DetectionChannel) : State where
  jpeg := jpeg
  config := config
  frames := frames
  detections := detections
  gate := .openFor config.switcher.initialCamera
  controller := .new config.switcher
  lock := none
  claims := .none
  handoff := .both none
  requests := []
  stop := .new
  devices := .unused
  captures := .both .new
  detector := .new
  control := .new
  owner := .idle

def deviceName (s : State) (c : Camera) : String := (s.config.capture.devices.get c).display

def hasExited (s : State) : Thread → Bool
  | .capture c => (s.captures.get c).hasExited
  | .detector => s.detector.hasExited
  | .control => s.control.hasExited

def isFresh (s : State) : Thread → Bool
  | .capture c => (s.captures.get c).isFresh
  | .detector => s.detector.isFresh
  | .control => s.control.isFresh

-- Runs on the controller, provided that nobody holds it.
def withController (s : State) (f : Controller → State) : Option State :=
  match s.lock with
  | none => some (f s.controller)
  | some _ => none

theorem withController_eq_some {s t : State} {f : Controller → State}
    (h : s.withController f = some t) : s.lock = none ∧ f s.controller = t := by
  unfold withController at h
  split at h
  case h_1 hl => exact ⟨hl, Option.some.inj h⟩
  case h_2    => cases h

end State

end DayNight.Pipeline
