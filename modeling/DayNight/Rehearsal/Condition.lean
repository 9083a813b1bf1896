import DayNight.Rehearsal.Basic

namespace DayNight.Rehearsal

open Pipeline

inductive Condition
  | active (camera : Camera)
  | degraded (yes : Bool)
  | error (yes : Bool)
  | pending (yes : Bool)
  -- At least so many brightness readings of the camera.
  | samples (camera : Camera) (count : Nat)
  | published (count : Nat)
  -- There is a detection, and the newest is of this frame or a later one.
  | detected (sequence : Nat)
  | inferences (count : Nat)
  -- A read of the camera waits for an answer.
  | idle (camera : Camera)
  | opening (camera : Camera)
  | closed (camera : Camera)
  | opens (camera : Camera) (count : Nat)
  | attempts (camera : Camera) (count : Nat)
  -- All the answers of the camera were taken.
  | drained (camera : Camera)
  deriving DecidableEq, Repr

def isReading (s : State) (c : Camera) : Bool :=
  ((s.captures.get c).phase matches .reading) ||
    match s.control.phase with
    | .probeReading handle => handle.camera = c
    | _ => false

def hasDetected (s : State) (sequence : Nat) : Bool :=
  match s.detections.backend.latest with
  | some detection => sequence ≤ detection.value.frameSequence.toNat
  | none => false

def Condition.holds (r : Rehearsal) : Condition → Bool
  | active camera => r.state.controller.active = camera
  | degraded yes => r.state.controller.degraded = yes
  | error yes => r.state.controller.lastError.isSome = yes
  | pending yes => r.state.controller.pending.isSome = yes
  | samples camera count => count ≤ (r.state.controller.brightness.get camera).samples
  | published count => count ≤ r.state.frames.stats.published
  | detected sequence => hasDetected r.state sequence
  | inferences count => count ≤ r.inferences
  | idle camera => isReading r.state camera && (r.cameras.get camera).queue.isEmpty
  | opening camera => r.opens.any fun o => o.handle.camera = camera && o.refusal.isNone
  | closed camera => (r.state.devices.openHandles camera).isEmpty
  | opens camera count => count ≤ (r.cameras.get camera).opens
  | attempts camera count => count ≤ (r.cameras.get camera).attempts
  | drained camera => (r.cameras.get camera).queue.isEmpty

end DayNight.Rehearsal
