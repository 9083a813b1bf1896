import DayNight.Brightness
import DayNight.Command
import DayNight.Config.Basic
import DayNight.Source

namespace DayNight

structure Transition where
  -- Counted up from 1. Here, as in `Controller`, the counters are numbers without a bound: it takes
  -- 2 ^ 64 switches until a machine word overflows.
  id : Nat
  source : Camera
  target : Camera
  reason : String
  deriving DecidableEq, Repr, Inhabited

-- An unbroken run of readings: when it began, and how long it had lasted at its last reading.
structure HoldTimer where
  since : Option Moment
  elapsed : Duration
  deriving DecidableEq, Repr, Inhabited

namespace HoldTimer

def idle : HoldTimer := ⟨none, .zero⟩

def qualify (t : HoldTimer) (now : Moment) : HoldTimer :=
  let since := t.since.getD now
  ⟨some since, now.since since⟩

def reached (t : HoldTimer) (hold : Duration) : Bool := t.since.isSome && decide (hold ≤ t.elapsed)

end HoldTimer

-- Only the brightness by day decides. A switch that was asked for stays pending until its outcome
-- is reported, or a newer command supersedes it.
structure Controller where
  config : Config.Switcher
  active : Camera
  mode : ControlMode
  manualTarget : Option Camera
  brightness : PerCamera BrightnessStat
  -- Readings below the lower threshold, while the day camera is active.
  below : HoldTimer
  -- Readings above the upper threshold, while the night camera is active.
  above : HoldTimer
  pending : Option Transition
  nextId : Nat
  -- After a failed switch: no new one before this time.
  retryAt : Option Moment
  transitionFailed : Bool
  captureDegraded : Bool
  lastError : Option String
  lastSwitchReason : String
  switchCount : Nat
  deriving Inhabited

namespace Controller

def new (config : Config.Switcher) : Controller where
  config := config
  active := config.initialCamera
  mode := config.initialMode
  manualTarget := match config.initialMode with
    | .manual => some config.initialCamera
    | .auto => none
  brightness := .both .empty
  below := .idle
  above := .idle
  pending := none
  nextId := 1
  retryAt := none
  transitionFailed := false
  captureDegraded := false
  lastError := none
  lastSwitchReason := "initial"
  switchCount := 0

def begin (c : Controller) (target : Camera) (reason : String) : Option Transition × Controller :=
  let transition : Transition := ⟨c.nextId, c.active, target, reason⟩
  (some transition, { c with nextId := c.nextId + 1, pending := some transition })

-- The camera that should be active and why, if another one is.
def due (c : Controller) : Option (Camera × String) :=
  match c.mode with
  | .manual =>
    -- Without a command since an earlier try failed, the target may still be inactive.
    match c.manualTarget with
    | some target => if target = c.active then none else some (target, "manual")
    | none => none
  | .auto =>
    match c.active with
    | .day =>
      if c.below.reached c.config.dayToNightHold then some (.night, "brightness_low") else none
    | .night =>
      if c.above.reached c.config.nightToDayHold then some (.day, "brightness_high") else none

-- Whether a new switch has to wait at `now`: for the outcome of another one, or after a failure.
def waits (c : Controller) (now : Moment) : Bool :=
  c.pending.isSome || match c.retryAt with
    | some time => decide (now < time)
    | none => false

def poll (c : Controller) (now : Moment) : Option Transition × Controller :=
  if c.waits now then (none, c)
  else
    match c.due with
    | some (target, reason) => c.begin target reason
    | none => (none, c)

-- Lets a reading by day take part in the run that matters for the active camera.
def trackHold (c : Controller) (value : Float) (now : Moment) : Controller :=
  match c.active with
  | .day =>
    if value < c.config.dayToNightThreshold then { c with below := c.below.qualify now }
    else { c with below := .idle }
  | .night =>
    if value > c.config.nightToDayThreshold then { c with above := c.above.qualify now }
    else { c with above := .idle }

-- A reading that is not finite is ignored, and one by night is only remembered.
def observe (c : Controller) (sample : BrightnessSample) : Option Transition × Controller :=
  if !sample.value.isFinite then (none, c)
  else
    let c := { c with brightness := c.brightness.modify sample.camera (·.record sample.value) }
    match sample.camera, c.mode with
    | .night, _ => (none, c)
    | .day, .manual => c.poll sample.takenAt
    | .day, .auto => (c.trackHold sample.value sample.takenAt).poll sample.takenAt

-- What every valid command does first: it ends the runs and the wait after a failure, and
-- supersedes a pending switch.
def superseded (c : Controller) : Controller :=
  { c with below := .idle, above := .idle, retryAt := none, pending := none }

def apply (c : Controller) (command : SwitchCommand) (now : Moment) :
    Except CommandFault (Option Transition) × Controller :=
  match command.validate with
  | .error fault => (.error fault, c)
  | .ok () =>
    let c := c.superseded
    match command.mode, command.camera with
    | .manual, some camera =>
      let reason := command.reason.getD "manual"
      let c := { c with mode := .manual, manualTarget := some camera }
      if camera = c.active then
        (.ok none,
          { c with lastSwitchReason := reason, transitionFailed := false, lastError := none })
      else
        let (transition, c) := c.begin camera reason
        (.ok transition, c)
    | _, _ =>
      let c := { c with
        mode := .auto
        manualTarget := none
        lastSwitchReason := command.reason.getD "auto-resume" }
      let (transition, c) := c.poll now
      (.ok transition, c)

def isPending (c : Controller) (t : Transition) : Bool := c.pending.map (·.id) = some t.id

-- Reports that the target of `t` is open and active; the answer is false if `t` was superseded.
def complete (c : Controller) (t : Transition) : Bool × Controller :=
  if c.isPending t then
    (true, { c with
      pending := none
      active := t.target
      retryAt := none
      transitionFailed := false
      captureDegraded := false
      lastError := none
      below := .idle
      above := .idle
      lastSwitchReason := t.reason
      switchCount := c.switchCount + 1 })
  else (false, c)

def failureText (target : Camera) (error : SourceError) : String :=
  "switch to " ++ target.name ++ " failed: " ++ error.message

-- Reports that the target of `t` could not be opened. The next try comes after a probe interval.
def fail (c : Controller) (t : Transition) (error : SourceError) (now : Moment) : Controller :=
  if c.isPending t then
    { c with
      pending := none
      retryAt := some (now.after c.config.probeInterval)
      transitionFailed := true
      lastError := some (failureText t.target error) }
  else c

-- Reports whether `camera` keeps failing to deliver; only the active camera counts.
def setCaptureDegraded (c : Controller) (camera : Camera) (degraded : Bool)
    (error : Option String) : Controller :=
  if camera = c.active then
    { c with
      captureDegraded := degraded
      lastError := if error.isSome then error else c.lastError }
  else c

def degraded (c : Controller) : Bool := c.captureDegraded || c.transitionFailed

end Controller

end DayNight
