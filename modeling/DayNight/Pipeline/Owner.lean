import DayNight.Pipeline.State

namespace DayNight.Pipeline.State

-- Starts all threads, one after the other; a pipeline is started once at most.
def start (s : State) : Except PipelineError State :=
  match s.owner with
  | .idle =>
    .ok { s with
      captures := ⟨s.captures.day.goTo .checkStop, s.captures.night.goTo .checkStop⟩
      detector := s.detector.goTo .checkStop
      control := { s.control with phase := .starting }
      owner := .running }
  | _ => .error .alreadyRunning

-- Threads that are not started count as ended.
def withdraw (s : State) (threads : List Thread) : State :=
  let exited (c : Camera) (own : CaptureThread) : CaptureThread :=
    if .capture c ∈ threads then own.goTo .exited else own
  { s with
    captures := ⟨exited .day s.captures.day, exited .night s.captures.night⟩
    detector := if .detector ∈ threads then s.detector.goTo .exited else s.detector
    control := if .control ∈ threads then { s.control with phase := .exited } else s.control }

-- The start fails at this thread: the pipeline is stopped at once, and those before it are joined.
-- They may have been at work in the meantime. The others have not; a thread that has done nothing
-- might as well not have been started yet.
def spawnFails (s : State) (thread : Thread) (reason : String) (now : Moment) :
    Option (PipelineError × State) :=
  match s.owner with
  | .running =>
    if thread.onward.all s.isFresh then
      some (.spawn thread.name reason, { s.withdraw thread.onward with
        gate := s.gate.close
        stop := s.stop.trigger
        owner := .joining thread.before [] (now.after s.config.pacing.shutdownTimeout) })
    else none
  | _ => none

-- The gate is closed first, so that nothing is published any more.
def beginStop (s : State) (now : Moment) : Option State :=
  match s.owner with
  | .running =>
    some { s with
      gate := s.gate.close
      owner := .stopping (now.after s.config.pacing.shutdownTimeout) }
  | _ => none

def ownerStep (s : State) (signal : Signal) : Option State :=
  match s.owner, signal with
  | .stopping deadline, .go =>
    some { s with stop := s.stop.trigger, owner := .joining Thread.all [] deadline }
  | .joining [] late _, .go => some { s with owner := .clearing Camera.all late }
  | .joining (thread :: left) late deadline, .go =>
    if s.hasExited thread then some { s with owner := .joining left late deadline } else none
  -- Past the deadline each thread that has not ended yet is left to itself.
  | .joining (thread :: left) late deadline, .timeUp =>
    some { s with owner := .joining left (late ++ [thread]) deadline }
  | .clearing [] late, .go => some { s with owner := .stopped late }
  | .clearing (c :: left) late, .go =>
    match s.handoff.get c with
    | none => some { s with owner := .clearing left late }
    | some handle =>
      some { s with handoff := s.handoff.set c none, owner := .close handle left late }
  | .close handle left late, .go =>
    some { s with devices := s.devices.close handle, owner := .unclaim handle.camera left late }
  | .unclaim c left late, .go =>
    some { s with claims := s.claims.release c, owner := .clearing left late }
  | _, _ => none

def isRunning (s : State) : Bool := s.owner matches .running

-- The threads that were left to themselves, once the pipeline is stopped.
def stopped? (s : State) : Option (List Thread) :=
  match s.owner with
  | .stopped late => some late
  | _ => none

end DayNight.Pipeline.State
