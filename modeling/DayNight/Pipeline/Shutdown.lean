import DayNight.Pipeline.Step

namespace DayNight.Pipeline

-- Whether a thread gives up waiting for an open.
def Action.opensLate : Action → Bool
  | .thread _ .openLate => true
  | _ => false

-- What a call reports, the threads that it has left to themselves, and the state in which it
-- returns. A pipeline that does not run is not stopped, and no thread is reported.
def State.shutDown (s : State) (clock : Clock) (meanwhile : List Event) :
    Option (List Thread × State) :=
  match s.owner with
  | .idle => some ([], s)
  | .stopped _ => some ([], s)
  | .running => do
    let t ← s.run (⟨clock, .beginStop⟩ :: meanwhile)
    let late ← t.stopped?
    return (late, t)
  | _ => none

end DayNight.Pipeline
