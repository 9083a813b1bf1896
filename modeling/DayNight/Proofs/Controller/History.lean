import DayNight.Proofs.Controller.Step
import Mathlib.Data.List.DropRight

namespace DayNight.Controller

-- A finite reading by day.
structure Reading where
  value : Float
  time : Moment

inductive Happening
  | reading (r : Reading)
  -- An accepted command or a completed switch that counts: hold times begin anew.
  | restart
  -- A failure that takes effect, with the time from which on there may be another try.
  | setback (retryAt : Moment)
  | other

namespace Happening

def isRestart : Happening → Bool
  | restart => true
  | _ => false

def reading? : Happening → Option Reading
  | reading r => some r
  | _ => none

def setback? : Happening → Option Moment
  | setback time => some time
  | _ => none

end Happening

def happening (c : Controller) (action : Action) : Happening :=
  match action, (c.step action).1 with
  | .observe sample, _ =>
    if sample.camera = .day ∧ sample.value.isFinite then .reading ⟨sample.value, sample.takenAt⟩
    else .other
  | .command .., .wants _ => .restart
  | .complete _, .accepts true => .restart
  | .fail transition _ now, _ =>
    if c.isPending transition then .setback (now.after c.config.probeInterval) else .other
  | _, _ => .other

section

variable {c : Controller}

theorem happening_observe (sample : BrightnessSample) : c.happening (.observe sample) =
    if sample.camera = .day ∧ sample.value.isFinite then .reading ⟨sample.value, sample.takenAt⟩
    else .other :=
  rfl

theorem happening_command_of_ok {command : SwitchCommand} (h : command.validate = .ok ())
    (now : Moment) : c.happening (.command command now) = .restart := by
  have ⟨_, _, ha, _⟩ := c.apply_of_ok now h
  simp [happening, step, ha]

theorem happening_command_of_error {command : SwitchCommand} {fault : CommandFault}
    (h : command.validate = .error fault) (now : Moment) :
    c.happening (.command command now) = .other := by
  simp [happening, step, apply_of_error h]

theorem happening_complete (t : Transition) :
    c.happening (.complete t) = if c.isPending t then .restart else .other := by
  cases h : c.isPending t <;> simp [happening, step, complete, h]

theorem happening_fail (t : Transition) (e : SourceError) (now : Moment) :
    c.happening (.fail t e now) =
      if c.isPending t then .setback (now.after c.config.probeInterval) else .other :=
  rfl

end

def happenings (c : Controller) : List Action → List Happening
  | [] => []
  | action :: actions => c.happening action :: (c.step action).2.happenings actions

theorem happenings_append (c : Controller) (first second : List Action) :
    c.happenings (first ++ second) = c.happenings first ++ (c.after first).happenings second := by
  induction first generalizing c
  case nil => rfl
  case cons action first ih => simp [happenings, ih]

theorem happenings_concat (c : Controller) (actions : List Action) (action : Action) :
    c.happenings (actions ++ [action]) =
      c.happenings actions ++ [(c.after actions).happening action] :=
  c.happenings_append actions [action]

section Recent

variable {hs : List Happening}

-- What has happened since the hold times last began anew.
def recent (hs : List Happening) : List Happening :=
  hs.rtakeWhile (!·.isRestart)

def readings (hs : List Happening) : List Reading :=
  (recent hs).filterMap Happening.reading?

def retryTime (hs : List Happening) : Option Moment :=
  ((recent hs).filterMap Happening.setback?).getLast?

theorem recent_concat_restart : recent (hs ++ [.restart]) = [] :=
  List.rtakeWhile_concat_neg _ _ _ (by simp [Happening.isRestart])

theorem recent_concat {h : Happening} (hr : h.isRestart = false) :
    recent (hs ++ [h]) = recent hs ++ [h] :=
  List.rtakeWhile_concat_pos _ _ _ (by simp [hr])

@[simp] theorem readings_concat_restart : readings (hs ++ [.restart]) = [] := by
  rw [readings, recent_concat_restart, List.filterMap_nil]

@[simp] theorem readings_concat_reading (r : Reading) :
    readings (hs ++ [.reading r]) = readings hs ++ [r] := by
  rw [readings, recent_concat rfl, List.filterMap_append]
  rfl

@[simp] theorem readings_concat_setback (time : Moment) :
    readings (hs ++ [.setback time]) = readings hs := by
  rw [readings, recent_concat rfl, List.filterMap_append]
  exact List.append_nil _

@[simp] theorem readings_concat_other : readings (hs ++ [.other]) = readings hs := by
  rw [readings, recent_concat rfl, List.filterMap_append]
  exact List.append_nil _

@[simp] theorem retryTime_concat_restart : retryTime (hs ++ [.restart]) = none := by
  rw [retryTime, recent_concat_restart, List.filterMap_nil, List.getLast?_nil]

@[simp] theorem retryTime_concat_reading (r : Reading) :
    retryTime (hs ++ [.reading r]) = retryTime hs := by
  rw [retryTime, recent_concat rfl, List.filterMap_append]
  exact congrArg List.getLast? (List.append_nil _)

@[simp] theorem retryTime_concat_setback (time : Moment) :
    retryTime (hs ++ [.setback time]) = some time := by
  rw [retryTime, recent_concat rfl, List.filterMap_append]
  exact List.getLast?_concat

@[simp] theorem retryTime_concat_other : retryTime (hs ++ [.other]) = retryTime hs := by
  rw [retryTime, recent_concat rfl, List.filterMap_append]
  exact congrArg List.getLast? (List.append_nil _)

end Recent

-- Whether a reading speaks for a switch away from the active camera.
def qualifies (config : Config.Switcher) (active : Camera) (r : Reading) : Bool :=
  match active with
  | .day => r.value < config.dayToNightThreshold
  | .night => r.value > config.nightToDayThreshold

-- The longest unbroken run of such readings up to now.
def holdRun (config : Config.Switcher) (active : Camera) (hs : List Happening) : List Reading :=
  (readings hs).rtakeWhile (qualifies config active)

theorem holdRun_concat_reading {config : Config.Switcher} {active : Camera}
    {hs : List Happening} (r : Reading) :
    holdRun config active (hs ++ [.reading r]) =
      if qualifies config active r then holdRun config active hs ++ [r] else [] := by
  rw [holdRun, readings_concat_reading, List.rtakeWhile_concat, holdRun]

def holdTime (config : Config.Switcher) : Camera → Duration
  | .day => config.dayToNightHold
  | .night => config.nightToDayHold

-- The reason of a switch away from the active camera.
def dueReason : Camera → String
  | .day => "brightness_low"
  | .night => "brightness_high"

-- From its first reading to its last one the run has lasted for `hold`.
def Lasted (hold : Duration) (run : List Reading) : Prop :=
  ∃ first ∈ run.head?, ∃ last ∈ run.getLast?, hold ≤ last.time.since first.time

end DayNight.Controller
