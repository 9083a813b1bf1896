import DayNight.Pipeline.Error

namespace DayNight

structure StopSignal where
  raised : Bool
  deriving DecidableEq, Repr, Inhabited

namespace StopSignal

def new : StopSignal := ⟨false⟩

def trigger (_ : StopSignal) : StopSignal := ⟨true⟩

-- The signal as a sleeper finds it when it wakes, after `limit` at most, if it is raised after
-- `raisedAfter`, or not at all. A signal that is up already wakes it at once.
def atWaking (s : StopSignal) (limit : Duration) (raisedAfter : Option Duration) : StopSignal :=
  match raisedAfter with
  | some d => if d < limit then s.trigger else s
  | none => s

-- What the sleeper learns: whether to stop.
def wait (s : StopSignal) (limit : Duration) (raisedAfter : Option Duration) : Bool :=
  (s.atWaking limit raisedAfter).raised

end StopSignal

-- The answer of a call that takes `duration`, for a caller who waits up to `limit`. A call that
-- breaks off has no answer.
def answerWithin {α : Type} (limit duration : Duration) (answer : Option α) : Option α :=
  if duration < limit then answer else none

-- Joins a thread, waiting no longer than `budget`. How the thread ended does not matter.
def joinThread (name : String) (ended : Bool) (budget : Duration) : Except PipelineError Unit :=
  if ended then .ok () else .error (.joinTimeout name budget)

structure LogContext where
  component : String
  deriving DecidableEq, Repr

-- The context of a part; it bears the part's name only.
def LogContext.child (_ : LogContext) (component : String) : LogContext := ⟨component⟩

end DayNight
