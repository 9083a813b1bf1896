import DayNight.Luma
import DayNight.Pipeline.State

namespace DayNight.Pipeline

-- The brightness of the image, if the image with this number is to be measured.
def measured (jpeg : JpegDecoder) (stride sequence : UInt64) (image : Image) :
    Except Overflow (Option Float) :=
  if sequence % max stride 1 = 0 then
    match image.luma jpeg with
    | .ok value => .ok (some value)
    | .error (.overflow o) => .error o
    | .error _ => .ok none
  else .ok none

def captureFailureText (camera : Camera) (error : SourceError) : String :=
  camera.name ++ " camera: " ++ error.message

namespace State

def setCapture (s : State) (c : Camera) (t : CaptureThread) : State :=
  { s with captures := s.captures.set c t }

def offerFrame (s : State) (c : Camera) (wall : WallTime) (image : Image) (luma : Option Float) :
    State :=
  let t := s.captures.get c
  let (outcome, gate, frames) := s.gate.publish c ⟨image, c, t.sequence, wall⟩ s.frames
  let s := { s with gate := gate, frames := frames }
  match outcome with
  | .ok (.published _) =>
    let t := { t with failures := 0 }
    if t.degraded then s.setCapture c ({ t with degraded := false }.goTo (.recover luma))
    else s.setCapture c (t.afterPublish luma)
  -- A frame that was dropped or refused ends no run of failures.
  | _ => s.setCapture c (t.goTo .sleep)

-- From the configured number of failures in a row on, the camera counts as failing.
def countFailure (s : State) (c : Camera) (error : SourceError) (bare : Bool) : State :=
  let t := s.captures.get c
  let limit := s.config.capture.maxFailedReads
  let t := { t with failures := t.failures + 1 }
  if t.failures < limit then s.setCapture c (t.endFailure bare)
  else if t.degraded then s.setCapture c (t.afterReport limit bare)
  else
    s.setCapture c ({ t with degraded := true }.goTo (.report (captureFailureText c error) bare))

-- One step of the capture thread of a camera; nothing if it cannot go on in this way.
def captureStep (s : State) (c : Camera) (clock : Clock) (signal : Signal) : Option State :=
  let t := s.captures.get c
  match t.phase, signal with
  | .checkStop, .go =>
    if s.stop.raised then some (s.setCapture c (t.release .exit))
    else some (s.setCapture c (t.goTo .takeOver))
  | .takeOver, .go =>
    match s.handoff.get c with
    | none => some (s.setCapture c (t.goTo .checkGate))
    | some handed =>
      let s := { s with handoff := s.handoff.set c none }
      -- A device that the thread still had makes way for the one that was left for it.
      match t.lease with
      | none => some (s.setCapture c { t with lease := some handed, phase := .checkGate })
      | some old =>
        some (s.setCapture c { t with lease := some handed, phase := .close old .checkGate })
  | .checkGate, .go =>
    if s.gate.active = c then
      some (s.setCapture c (t.goTo (if t.lease.isSome then .reading else .claim)))
    else
      -- What the controller knows of this camera's failures has ended with the switch.
      some (s.setCapture c ({ t with failures := 0, degraded := false }.release .sleep))
  | .claim, .go =>
    match s.claims.claim? c with
    -- A probe or a switch has the device; there is another turn.
    | none => some (s.setCapture c (t.goTo .sleep))
    | some claims =>
      let (handle, devices) := s.devices.begin c
      some ({ s with claims := claims, devices := devices }.setCapture c (t.goTo (.opening handle)))
  | .opening handle, .opened =>
    some ({ s with devices := s.devices.arrive handle }.setCapture c
      { t with lease := some handle, phase := .reading })
  -- The claim is kept until the failure is dealt with.
  | .opening handle, .refused e =>
    some ({ s with devices := s.devices.refuse handle }.setCapture c (t.goTo (.failed e true)))
  | .opening handle, .openLate =>
    let e := SourceError.openTimeout (s.deviceName c) s.config.capture.openTimeout
    some ({ s with devices := s.devices.abandon handle }.setCapture c (t.goTo (.failed e true)))
  | .reading, .read (.ok image) =>
    let t := { t with sequence := t.sequence + 1 }
    match measured s.jpeg s.config.capture.activeSampleStride t.sequence image with
    | .ok luma => some (s.setCapture c (t.goTo (.publish image luma)))
    -- The thread breaks off over a size that cannot be counted. Runs with such images are left out.
    | .error _ => none
  | .reading, .read (.error e) => some (s.setCapture c (t.goTo (.failed e false)))
  | .publish image luma, .go => some (s.offerFrame c clock.wall image luma)
  | .recover luma, .go =>
    s.withController fun controller =>
      { s with controller := controller.setCaptureDegraded c false none }.setCapture c
        (t.afterPublish luma)
  | .sample value, .go =>
    s.withController fun controller =>
      let (transition, controller) := controller.observe ⟨c, value, clock.moment⟩
      { s with controller := controller }.setCapture c
        (t.goTo (match transition with
          | some transition => .request transition
          | none => .sleep))
  | .request transition, .go =>
    some ({ s with requests := s.requests ++ [transition] }.setCapture c (t.goTo .sleep))
  | .failed e bare, .go => some (s.countFailure c e bare)
  | .report text bare, .go =>
    s.withController fun controller =>
      { s with controller := controller.setCaptureDegraded c true (some text) }.setCapture c
        (t.afterReport s.config.capture.maxFailedReads bare)
  | .close handle next, .go =>
    some ({ s with devices := s.devices.close handle }.setCapture c (t.goTo (.unclaim next)))
  | .unclaim next, .go =>
    some ({ s with claims := s.claims.release c }.setCapture c (t.goOn next))
  | .sleep, .timeUp =>
    if s.stop.raised then some (s.setCapture c (t.release .exit))
    else some (s.setCapture c (t.goTo .checkStop))
  | _, _ => none

end State

end DayNight.Pipeline
