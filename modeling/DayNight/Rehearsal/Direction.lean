import DayNight.Controller.Status
import DayNight.Rehearsal.Condition

namespace DayNight.Rehearsal

open Pipeline

def start (r : Rehearsal) : Except PipelineError Rehearsal :=
  match r.state.start with
  | .ok s => .ok { r with state := s }
  | .error e => .error e

-- Gives a command; the answer is the status right after it. The switch that it may ask for is
-- handed to the control thread.
def command (r : Rehearsal) (command : SwitchCommand) :
    Except CommandFault CameraStatus × Rehearsal :=
  match r.state.command command r.now with
  | some (.ok (), s) => (.ok s.controller.status, { r with state := s.request.getD s })
  | some (.error fault, _) => (.error fault, r)
  | none => (.ok r.state.controller.status, r)

def status (r : Rehearsal) : CameraStatus := r.state.controller.status

def feed (r : Rehearsal) (c : Camera) (items : List Item) : Rehearsal :=
  { r with cameras := r.cameras.modify c fun camera => camera.feed items }

def setOpens (r : Rehearsal) (c : Camera) (refusal : Option String) (delay : Duration) :
    Rehearsal :=
  { r with cameras := r.cameras.modify c fun camera => camera.setOpens refusal delay }

def sleep (r : Rehearsal) (time : Duration) : Rehearsal := (r.runFor time fun _ => false).2

def patience : Duration := .ofSeconds 5

-- Waits until all conditions hold together; the answer tells whether they do in the end.
def wait (r : Rehearsal) (conditions : List Condition) : Bool × Rehearsal :=
  let done (r : Rehearsal) : Bool := conditions.all fun c => c.holds r
  if done r then (true, r) else r.runFor patience done

def releaseCameras (r : Rehearsal) : Rehearsal :=
  { r with cameras := ⟨r.cameras.day.release, r.cameras.night.release⟩ }

-- Stops the pipeline, after the cameras are released unless reads shall stay stuck. The answer are
-- the threads that missed the deadline; none if the pipeline was not running.
def stop (r : Rehearsal) (stuck : Bool) : List Thread × Rehearsal :=
  let r := if stuck then r else r.releaseCameras
  match r.event? .beginStop with
  | none => ([], r)
  | some r =>
    let (_, r) := r.runFor (.ofMillis (r.state.config.pacing.shutdownTimeoutMillis.toNat + 1))
      fun r => r.state.stopped?.isSome
    ((r.state.stopped?).getD [], r)

structure CameraReport where
  opens : Nat
  attempts : Nat
  handles : Nat
  queued : Nat
  deriving DecidableEq, Repr

def report (r : Rehearsal) (c : Camera) : CameraReport :=
  let camera := r.cameras.get c
  ⟨camera.opens, camera.attempts, (r.state.devices.openHandles c).length, camera.queue.length⟩

def directory (r : Rehearsal) : Shelf :=
  let frames : Mounted Frame := ⟨r.state.frames, r.frameFile⟩
  let detections : Mounted Detection := ⟨r.state.detections, r.detectionFile⟩
  detections.written r.state.detections (frames.written r.state.frames r.shelf)

def shared {α : Type} [Record α] (r : Rehearsal) (file : String) :
    Except ChannelError (Option (Published α)) :=
  let path := r.state.config.channels.directory ++ "/" ++ file
  match Mounted.attach r.directory path path with
  | .ok (mounted : Mounted α) => .ok (mounted.latest r.directory).1
  | .error e => .error e

def sharedFrame (r : Rehearsal) : Except ChannelError (Option (Published Frame)) :=
  r.shared Mounted.frameFile

def sharedDetection (r : Rehearsal) : Except ChannelError (Option (Published Detection)) :=
  r.shared Mounted.detectionFile

end DayNight.Rehearsal
