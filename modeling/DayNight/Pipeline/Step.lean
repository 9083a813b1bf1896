import DayNight.Pipeline.Capture
import DayNight.Pipeline.Control
import DayNight.Pipeline.Detecting
import DayNight.Pipeline.Owner

namespace DayNight.Pipeline

inductive Action
  | start
  -- A thread cannot be started, for a reason of the system's.
  | spawnFails (thread : Thread) (reason : String)
  | beginStop
  | owner (signal : Signal)
  | thread (thread : Thread) (signal : Signal)
  -- A caller's command. If it asks for a switch, the caller keeps hold of the controller.
  | command (command : SwitchCommand)
  -- The caller hands the switch to the control thread and lets the controller go.
  | request
  | readFrame
  | readDetection
  | arriveLate (handle : Handle)
  | refuseLate (handle : Handle)
  | closeStray (handle : Handle)

structure Event where
  clock : Clock
  action : Action

namespace State

def threadStep (s : State) (thread : Thread) (clock : Clock) (signal : Signal) : Option State :=
  match thread with
  | .capture c => s.captureStep c clock signal
  | .detector => s.detectorStep clock signal
  | .control => s.controlStep clock signal

def command (s : State) (command : SwitchCommand) (now : Moment) :
    Option (Except CommandFault Unit × State) :=
  match s.lock with
  | some _ => none
  | none =>
    match s.controller.apply command now with
    | (.error fault, _) => some (.error fault, s)
    | (.ok transition, controller) =>
      some (.ok (), { s with controller := controller, lock := transition.map .caller })

def request (s : State) : Option State :=
  match s.lock with
  | some (.caller transition) =>
    some { s with requests := s.requests ++ [transition], lock := none }
  | _ => none

-- The state after an event; nothing if the event cannot happen now.
def step (s : State) (e : Event) : Option State :=
  match e.action with
  | .start => s.start.toOption
  | .spawnFails thread reason => (s.spawnFails thread reason e.clock.moment).map (·.2)
  | .beginStop => s.beginStop e.clock.moment
  | .owner signal => s.ownerStep signal
  | .thread thread signal => s.threadStep thread e.clock signal
  | .command command => (s.command command e.clock.moment).map (·.2)
  | .request => s.request
  | .readFrame => some { s with frames := s.frames.latest.2 }
  | .readDetection => some { s with detections := s.detections.latest.2 }
  | .arriveLate handle => (s.devices.arriveLate? handle).map fun d => { s with devices := d }
  | .refuseLate handle => (s.devices.refuseLate? handle).map fun d => { s with devices := d }
  | .closeStray handle => (s.devices.closeStray? handle).map fun d => { s with devices := d }

-- In any order that their guards allow: so what holds after every run holds for every interleaving
-- of the threads, however the clocks go and whatever the cameras and the detector answer.
def run (s : State) (events : List Event) : Option State := events.foldlM step s

inductive Reachable (initial : State) : State → Prop
  | start : Reachable initial initial
  | step {s t : State} {e : Event} : Reachable initial s → s.step e = some t → Reachable initial t

-- What holds at first and is kept by every event holds in every state that can be reached.
theorem Reachable.induct {initial : State} {p : State → Prop} (first : p initial)
    (kept : ∀ s e t, p s → s.step e = some t → p t) {s : State} (h : Reachable initial s) :
    p s := by
  induction h with
  | start => exact first
  | step _ he ih => exact kept _ _ _ ih he

theorem Reachable.run {initial s t : State} {events : List Event} (hs : Reachable initial s)
    (h : s.run events = some t) : Reachable initial t := by
  induction events generalizing s with
  | nil =>
    obtain rfl : s = t := by simpa [State.run] using h
    exact hs
  | cons e events ih =>
    simp only [State.run, List.foldlM_cons] at h
    cases he : s.step e with
    | none => simp [he] at h
    | some u =>
      simp only [he] at h
      exact ih (.step hs he) h

end State

end DayNight.Pipeline
