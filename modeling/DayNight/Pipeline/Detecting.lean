import DayNight.Pipeline.State

namespace DayNight.Pipeline.State

def setDetector (s : State) (phase : DetectorPhase) : State :=
  { s with detector := s.detector.goTo phase }

def detectorStep (s : State) (clock : Clock) (signal : Signal) : Option State :=
  match s.detector.phase, signal with
  | .checkStop, .go => some (s.setDetector (if s.stop.raised then .exited else .look))
  -- A frame counts as seen from here on, whatever comes of it.
  | .look, .go =>
    let (newest, frames) := s.frames.latest
    let s := { s with frames := frames }
    match newest with
    | some frame =>
      if frame.sequence = s.detector.lastSeen then some (s.setDetector .sleep)
      else some { s with detector := ⟨.infer frame, frame.sequence⟩ }
    | none => some (s.setDetector .sleep)
  | .infer frame, .inferred (.ok boxes) => some (s.setDetector (.publish boxes frame.sequence))
  | .infer _, .inferred (.error _) => some (s.setDetector .sleep)
  | .publish boxes sequence, .go =>
    let kept := Box.keepBest s.config.channels.maxDetections.toNat boxes
    let (_, detections) := s.gate.publishIfOpen ⟨kept, clock.wall, sequence⟩ s.detections
    some ({ s with detections := detections }.setDetector .sleep)
  | .sleep, .timeUp => some (s.setDetector (if s.stop.raised then .exited else .checkStop))
  | _, _ => none

end DayNight.Pipeline.State
