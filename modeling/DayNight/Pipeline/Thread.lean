import DayNight.Channel.Basic
import DayNight.Controller.Basic
import DayNight.Pipeline.Devices

namespace DayNight.Pipeline

-- A thread goes on step by step; one step does one thing that other threads can see, such as an
-- operation under a lock, or waits for one answer from outside.
inductive Thread
  | capture (camera : Camera)
  | detector
  | control
  deriving DecidableEq, Repr

namespace Thread

def name : Thread → String
  | capture camera => "camera-" ++ camera.name
  | detector => "detector"
  | control => "control"

-- All threads, in the order in which they are started and joined.
def all : List Thread := [capture .day, capture .night, detector, control]

def before (thread : Thread) : List Thread := all.takeWhile (· ≠ thread)

def onward (thread : Thread) : List Thread := all.dropWhile (· ≠ thread)

end Thread

inductive Signal
  | go
  -- The time for which it wanted to sleep or to wait is over.
  | timeUp
  | opened
  | refused (error : SourceError)
  -- The open did not come within its limit.
  | openLate
  | read (answer : Except SourceError Image)
  | inferred (answer : Except DetectorError (List Box))

-- What comes of an open for the thread that waits for it, by the answer that it has in time.
def Signal.ofOpen : Option (Except SourceError Unit) → Signal
  | some (.ok ()) => opened
  | some (.error e) => refused e
  | none => openLate

structure Clock where
  moment : Moment
  wall : WallTime
  deriving DecidableEq, Repr, Inhabited

inductive AfterRelease
  | checkGate
  | sleep
  | exit
  deriving DecidableEq, Repr

-- Where a capture thread stands. `bare` says that it holds a claim without a handle.
inductive CapturePhase
  | notStarted
  | checkStop
  -- Takes a device over that a switch has opened for it.
  | takeOver
  | checkGate
  | claim
  | opening (handle : Handle)
  | reading
  | publish (image : Image) (luma : Option Float)
  | recover (luma : Option Float)
  | sample (value : Float)
  -- Hands a switch that the sample called for to the control thread.
  | request (transition : Transition)
  | failed (error : SourceError) (bare : Bool)
  | report (text : String) (bare : Bool)
  | close (handle : Handle) (next : AfterRelease)
  | unclaim (next : AfterRelease)
  | sleep
  | exited

structure CaptureThread where
  phase : CapturePhase
  -- The device that the thread keeps open; it holds the claim too.
  lease : Option Handle
  sequence : UInt64
  -- Failures since a frame was last published.
  failures : UInt32
  degraded : Bool

namespace CaptureThread

def new : CaptureThread := ⟨.notStarted, none, 0, 0, false⟩

def goTo (t : CaptureThread) (phase : CapturePhase) : CaptureThread := { t with phase := phase }

def goOn (t : CaptureThread) : AfterRelease → CaptureThread
  | .checkGate => t.goTo .checkGate
  | .sleep => t.goTo .sleep
  | .exit => t.goTo .exited

def release (t : CaptureThread) (next : AfterRelease) : CaptureThread :=
  match t.lease with
  | some handle => { t with lease := none, phase := .close handle next }
  | none => t.goOn next

def afterPublish (t : CaptureThread) (luma : Option Float) : CaptureThread :=
  match luma with
  | some value => t.goTo (.sample value)
  | none => t.goTo .sleep

def endFailure (t : CaptureThread) (bare : Bool) : CaptureThread :=
  t.goTo (if bare then .unclaim .sleep else .sleep)

-- Gives the device up after every `limit` failures, so that it is opened anew.
def afterReport (t : CaptureThread) (limit : UInt32) (bare : Bool) : CaptureThread :=
  if t.failures % limit = 0 ∧ t.lease.isSome then t.release .sleep else t.endFailure bare

def hasExited (t : CaptureThread) : Bool := t.phase matches .exited

-- It is as it was when it started.
def isFresh (t : CaptureThread) : Bool :=
  (t.phase matches .checkStop) && t.lease.isNone && t.sequence = 0 && t.failures = 0 && !t.degraded

end CaptureThread

inductive DetectorPhase
  | notStarted
  | checkStop
  | look
  | infer (frame : Published Frame)
  | publish (boxes : List Box) (sequence : UInt64)
  | sleep
  | exited

structure DetectorThread where
  phase : DetectorPhase
  -- The number of the frame that it looked at last.
  lastSeen : UInt64

namespace DetectorThread

def new : DetectorThread := ⟨.notStarted, 0⟩

def goTo (t : DetectorThread) (phase : DetectorPhase) : DetectorThread := { t with phase := phase }

def hasExited (t : DetectorThread) : Bool := t.phase matches .exited

def isFresh (t : DetectorThread) : Bool := (t.phase matches .checkStop) && t.lastSeen = 0

end DetectorThread

inductive AfterSwitch
  | retry
  | wait
  | checkStop
  deriving DecidableEq, Repr

structure Switch where
  transition : Transition
  next : AfterSwitch
  deriving DecidableEq, Repr

inductive ControlPhase
  | notStarted
  | starting
  | checkStop
  | checkTime
  | chooseProbe
  | probeClaim (camera : Camera)
  | probeOpening (handle : Handle)
  | probeReading (handle : Handle)
  | probeClose (handle : Handle) (value : Option Float)
  | probeUnclaim (camera : Camera) (value : Option Float)
  | probeSample (camera : Camera) (value : Float)
  -- Asks for a switch whose time has come, after an earlier one failed.
  | retry
  | wait
  | receive (wakeAt : Moment)
  | execute (switch : Switch)
  | checkPending (switch : Switch)
  | claim (switch : Switch) (deadline : Moment)
  | claimWait (switch : Switch) (deadline : Moment)
  | opening (switch : Switch) (handle : Handle) (limit : Duration)
  | unclaim (switch : Switch) (error : SourceError)
  | reportFailure (switch : Switch) (error : SourceError)
  | complete (switch : Switch) (handle : Handle)
  | moveGate (switch : Switch) (handle : Handle)
  | deposit (switch : Switch) (handle : Handle)
  -- Closes a handle that lay in the target's slot.
  | closeStale (switch : Switch) (handle : Handle)
  | unclaimStale (switch : Switch) (camera : Camera)
  | unlock (switch : Switch)
  -- Closes the handle of a switch that was superseded.
  | discard (switch : Switch) (handle : Handle)
  | unclaimDiscarded (switch : Switch) (camera : Camera)
  | exited

def AfterSwitch.phase : AfterSwitch → ControlPhase
  | retry => .retry
  | wait => .wait
  | checkStop => .checkStop

def Switch.done (switch : Switch) : ControlPhase := switch.next.phase

structure ControlThread where
  phase : ControlPhase
  nextProbe : Moment

namespace ControlThread

def new : ControlThread := ⟨.notStarted, .start⟩

def hasExited (t : ControlThread) : Bool := t.phase matches .exited

def isFresh (t : ControlThread) : Bool := t.phase matches .starting

end ControlThread

-- Where the owner of the pipeline stands. `late` are the threads that missed the deadline.
inductive OwnerPhase
  | idle
  | running
  -- The gate is closed; next the stop signal is raised.
  | stopping (deadline : Moment)
  | joining (left late : List Thread) (deadline : Moment)
  -- Takes back devices that nobody has taken over.
  | clearing (left : List Camera) (late : List Thread)
  | close (handle : Handle) (left : List Camera) (late : List Thread)
  | unclaim (camera : Camera) (left : List Camera) (late : List Thread)
  | stopped (late : List Thread)
  deriving DecidableEq

end DayNight.Pipeline
