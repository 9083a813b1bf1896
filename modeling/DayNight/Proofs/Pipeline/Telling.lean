import DayNight.Gate.Outlet
import DayNight.Proofs.Pipeline.Steps

namespace DayNight

-- The controller after an action, if there is one.
def Controller.told (c : Controller) : Option Controller.Action → Controller
  | some action => (c.step action).2
  | none => c

namespace Outlet

-- What the threads of a pipeline do at its gate and with its channels.
inductive Visit
  | act (action : Action)
  | readFrame
  | readDetection

def visited (o : Outlet) : Option Visit → Outlet
  | some (.act action) => (o.step action).2
  | some .readFrame => { o with frames := o.frames.latest.2 }
  | some .readDetection => { o with detections := o.detections.latest.2 }
  | none => o

end Outlet

namespace Pipeline

def CapturePhase.tells? (c : Camera) (now : Moment) : CapturePhase → Option Controller.Action
  | recover _ => some (.setCaptureDegraded c false none)
  | report text _ => some (.setCaptureDegraded c true (some text))
  | sample value => some (.observe ⟨c, value, now⟩)
  | _ => none

-- A thread that is about to offer an image goes to the gate, with the number that it has counted.
def CapturePhase.visit? (c : Camera) (sequence : UInt64) (wall : WallTime) :
    CapturePhase → Option Outlet.Visit
  | publish image _ => some (.act (.offer c ⟨image, c, sequence, wall⟩))
  | _ => none

-- Whether the thread is about to tell the controller that its camera fails, or has recovered.
def CapturePhase.reports? : CapturePhase → Option Bool
  | recover _ => some false
  | report _ _ => some true
  | _ => none

def ControlPhase.tells? (now : Moment) : ControlPhase → Option Controller.Action
  | probeSample c value => some (.observe ⟨c, value, now⟩)
  | retry => some (.poll now)
  | reportFailure w e => some (.fail w.transition e now)
  | complete w _ => some (.complete w.transition)
  | _ => none

def ControlPhase.visit? (warmup : UInt32) : ControlPhase → Option Outlet.Visit
  | moveGate w _ => some (.act (.switchTo w.transition.target warmup))
  | _ => none

def DetectorPhase.visit? (limit : Nat) (wall : WallTime) : DetectorPhase → Option Outlet.Visit
  | look => some .readFrame
  | publish boxes sequence => some (.act (.publish ⟨Box.keepBest limit boxes, wall, sequence⟩))
  | _ => none

namespace CaptureThread

variable {t : CaptureThread}

-- What a thread makes of its flag in a step. It reports every change but one: a camera that is no
-- longer active counts as sound at once.
inductive Goes (t : CaptureThread) : CaptureThread → Prop
  | keeps {own : CaptureThread} : own.phase.reports? = none → own.degraded = t.degraded →
    Goes t own
  | resets {own : CaptureThread} : t.phase.reports? = none → own.phase.reports? = none →
    own.degraded = false → Goes t own
  | changes {own : CaptureThread} : t.phase.reports? = none →
    own.phase.reports? = some own.degraded → Goes t own

@[simp] theorem quiet_goTo (phase : CapturePhase) :
    (t.goTo phase).phase.reports? = phase.reports? ∧ (t.goTo phase).degraded = t.degraded :=
  ⟨rfl, rfl⟩

@[simp] theorem quiet_goOn (next : AfterRelease) :
    (t.goOn next).phase.reports? = none ∧ (t.goOn next).degraded = t.degraded := by
  cases next <;> exact ⟨rfl, rfl⟩

@[simp] theorem quiet_release (next : AfterRelease) :
    (t.release next).phase.reports? = none ∧ (t.release next).degraded = t.degraded := by
  cases h : t.lease
  case none   => simp [release, h]
  case some _ => rw [release, h]; exact ⟨rfl, rfl⟩

@[simp] theorem quiet_endFailure (bare : Bool) :
    (t.endFailure bare).phase.reports? = none ∧ (t.endFailure bare).degraded = t.degraded := by
  cases bare <;> exact ⟨rfl, rfl⟩

@[simp] theorem quiet_afterReport (limit : UInt32) (bare : Bool) :
    (t.afterReport limit bare).phase.reports? = none ∧
    (t.afterReport limit bare).degraded = t.degraded := by
  unfold afterReport
  split
  case isTrue  => exact quiet_release .sleep
  case isFalse => exact quiet_endFailure bare

@[simp] theorem quiet_afterPublish (luma : Option Float) :
    (t.afterPublish luma).phase.reports? = none ∧
    (t.afterPublish luma).degraded = t.degraded := by
  cases luma <;> exact ⟨rfl, rfl⟩

end CaptureThread

namespace State

variable {s t : State} {c : Camera} {clock : Clock} {signal : Signal} {now : Moment}

def outlet (s : State) : Outlet := ⟨s.gate, s.frames, s.detections⟩

def told? (s : State) (e : Event) : Option Controller.Action :=
  match e.action with
  | .command command => some (.command command e.clock.moment)
  | .thread (.capture c) _ => (s.captures.get c).phase.tells? c e.clock.moment
  | .thread .control _ => s.control.phase.tells? e.clock.moment
  | _ => none

def visit? (s : State) (e : Event) : Option Outlet.Visit :=
  match e.action with
  | .spawnFails _ _ => some (.act .close)
  | .beginStop => some (.act .close)
  | .thread (.capture c) _ =>
    (s.captures.get c).phase.visit? c (s.captures.get c).sequence e.clock.wall
  | .thread .detector _ =>
    s.detector.phase.visit? s.config.channels.maxDetections.toNat e.clock.wall
  | .thread .control _ => s.control.phase.visit? s.config.switcher.warmupFrames
  | .readFrame => some .readFrame
  | .readDetection => some .readDetection
  | _ => none

-- A step that leaves the capture threads alone.
structure Tells (s : State) (action : Option Controller.Action) (visit : Option Outlet.Visit)
    (t : State) : Prop where
  config     : t.config = s.config
  controller : t.controller = s.controller.told action
  outlet     : t.outlet = s.outlet.visited visit
  captures   : t.captures = s.captures

theorem ControlStep.tells (h : s.ControlStep clock t) :
    s.Tells (s.control.phase.tells? clock.moment)
      (s.control.phase.visit? s.config.switcher.warmupFrames) t := by
  cases h
  case loses hp _ hi =>
    rw [hp]
    refine ⟨rfl, ?_, rfl, rfl⟩
    rw [ControlPhase.tells?, Controller.told, Controller.step,
      Controller.complete_of_not_pending (by simpa using hi)]
    rfl
  all_goals
    rw [‹s.control.phase = _›]
    exact ⟨rfl, rfl, rfl, rfl⟩

theorem DetectorStep.tells (h : s.DetectorStep clock t) :
    s.Tells none (s.detector.phase.visit? s.config.channels.maxDetections.toNat clock.wall) t := by
  cases h
  case exits hp _ => obtain hp | hp := hp <;> rw [hp] <;> exact ⟨rfl, rfl, rfl, rfl⟩
  all_goals
    rw [‹s.detector.phase = _›]
    exact ⟨rfl, rfl, rfl, rfl⟩

theorem OwnerStep.tells (h : s.OwnerStep t) : s.Tells none none t := by
  cases h
  all_goals exact ⟨rfl, rfl, rfl, rfl⟩

theorem command_tells {command : SwitchCommand} {now : Moment}
    (h : (s.command command now).map (·.2) = some t) :
    s.Tells (some (.command command now)) none t := by
  obtain ⟨_, rfl⟩ := command_eq h
  exact ⟨rfl, rfl, rfl, rfl⟩

-- A step of a capture thread.
structure CaptureTells (s : State) (c : Camera) (clock : Clock) (t : State) : Prop where
  config     : t.config = s.config
  controller : t.controller = s.controller.told ((s.captures.get c).phase.tells? c clock.moment)
  outlet     : t.outlet = s.outlet.visited
    ((s.captures.get c).phase.visit? c (s.captures.get c).sequence clock.wall)
  own        : ∃ own, t.captures = s.captures.set c own ∧ (s.captures.get c).Goes own

theorem captureTells {p : CapturePhase} {own : CaptureThread} (hp : (s.captures.get c).phase = p)
    (ht : t.captures = s.captures.set c own) (hg : (s.captures.get c).Goes own)
    (hc : t.controller = s.controller.told (p.tells? c clock.moment) := by rfl)
    (ho : t.outlet = s.outlet.visited (p.visit? c (s.captures.get c).sequence clock.wall) := by rfl)
    (hx : t.config = s.config := by rfl) : s.CaptureTells c clock t :=
  ⟨hx, hp ▸ hc, hp ▸ ho, own, ht, hg⟩

theorem CaptureStep.tells (h : s.CaptureStep c clock signal (s.captures.get c) t) :
    s.CaptureTells c clock t := by
  cases h
  case begins hp _ | wakes hp _ _ | misses hp _ | takes hp _ _ | replaces hp _ _ | goesOn hp _ _
      | needs hp _ _ | passes hp _ | claims hp _ | opens hp | fails hp | late hp | closes hp
      | reads hp _ | withholds hp _ | samples hp _ _ | wants hp _ _ | requests hp | readFails hp =>
    exact captureTells hp rfl (.keeps rfl rfl)
  case ends hp _ | wakesUp hp _ _ | unclaims hp | publishes hp _ _ | clears hp _ | counts hp _
      | recounts hp _ _ | reports hp _ =>
    exact captureTells hp rfl (.keeps (by simp) (by simp))
  case yields hp _ => exact captureTells hp rfl (.resets (by rw [hp]; rfl) (by simp) (by simp))
  case recovers hp _ _ | gives hp _ _ => exact captureTells hp rfl (.changes (by rw [hp]; rfl) rfl)

-- What any step of the pipeline tells.
inductive StepTells (s : State) (e : Event) (t : State) : Prop
  | capture {c : Camera} {signal : Signal} : e.action = .thread (.capture c) signal →
    s.CaptureTells c e.clock t → StepTells s e t
  | start : t.outlet = s.outlet → e.action = .start → s.owner = .idle → t.owner = .running →
    t.config = s.config → t.controller = s.controller →
    (∀ c, t.captures.get c = (s.captures.get c).goTo .checkStop) → StepTells s e t
  | spawnFails {thread : Thread} {reason : String} : e.action = .spawnFails thread reason →
    t.config = s.config → t.controller = s.controller →
    t.outlet = s.outlet.visited (some (.act .close)) →
    (∀ c, t.captures.get c = s.captures.get c ∨
      s.captures.get c = CaptureThread.new.goTo .checkStop ∧
        t.captures.get c = CaptureThread.new.goTo .exited) → StepTells s e t
  | other : (∀ c signal, e.action ≠ .thread (.capture c) signal) →
    s.Tells (s.told? e) (s.visit? e) t → StepTells s e t

theorem step_tells {e : Event} (h : s.step e = some t) : s.StepTells e t := by
  obtain ⟨clock, action⟩ := e
  cases action
  case start =>
    replace h : s.start.toOption = some t := h
    unfold start at h
    split at h
    case h_1 ho =>
      cases h
      exact .start rfl rfl ho rfl rfl rfl fun c => by cases c <;> rfl
    case h_2 => cases h
  case spawnFails =>
    obtain ⟨_, hf, rfl⟩ := spawnFails_eq h
    exact .spawnFails rfl rfl rfl rfl (withdraw_captures hf)
  case beginStop =>
    refine .other nofun ?_
    simp only [step, beginStop] at h
    split at h
    case h_1 => cases h; exact ⟨rfl, rfl, rfl, rfl⟩
    case h_2 => cases h
  case owner => exact .other nofun (ownerStep_cases h).tells
  case thread thread signal =>
    cases thread
    case capture c => exact .capture rfl (captureStep_cases h).tells
    case detector  => exact .other nofun (detectorStep_cases h).tells
    case control   => exact .other nofun (controlStep_cases h).tells
  case command => exact .other nofun (command_tells h)
  case request =>
    refine .other nofun ?_
    simp only [step, request] at h
    split at h
    case h_1 => cases h; exact ⟨rfl, rfl, rfl, rfl⟩
    case h_2 => cases h
  case readFrame | readDetection =>
    cases h
    exact .other nofun ⟨rfl, rfl, rfl, rfl⟩
  case arriveLate | refuseLate | closeStray =>
    obtain ⟨_, _, rfl⟩ := Option.map_eq_some_iff.mp h
    exact .other nofun ⟨rfl, rfl, rfl, rfl⟩

section

variable {e : Event}

theorem StepTells.config (h : s.StepTells e t) : t.config = s.config := by
  cases h
  case capture ht          => exact ht.config
  case start hc _ _        => exact hc
  case spawnFails hc _ _ _ => exact hc
  case other ht            => exact ht.config

theorem StepTells.controller (h : s.StepTells e t) :
    t.controller = s.controller.told (s.told? e) := by
  cases h
  case capture he ht          => rw [told?, he]; exact ht.controller
  case start he _ _ _ hd _    => rw [told?, he]; exact hd
  case spawnFails he _ hd _ _ => rw [told?, he]; exact hd
  case other ht               => exact ht.controller

theorem StepTells.outlet (h : s.StepTells e t) : t.outlet = s.outlet.visited (s.visit? e) := by
  cases h
  case capture he ht          => rw [visit?, he]; exact ht.outlet
  case start ho he _ _ _ _ _  => rw [visit?, he]; exact ho
  case spawnFails he _ _ ho _ => rw [visit?, he]; exact ho
  case other ht               => exact ht.outlet

-- Nobody else moves a capture thread that has been started, but for one that has done nothing.
theorem StepTells.captures (h : s.StepTells e t)
    (he : ∀ signal, e.action ≠ .thread (.capture c) signal) :
    t.captures.get c = s.captures.get c ∨
      (s.owner = .idle ∧ t.captures.get c = (s.captures.get c).goTo .checkStop) ∨
      (s.captures.get c = CaptureThread.new.goTo .checkStop ∧
        t.captures.get c = CaptureThread.new.goTo .exited) := by
  cases h
  case capture d signal ha ht =>
    have ⟨own, hw, _⟩ := ht.own
    have hd : c ≠ d := fun hd => he signal (hd ▸ ha)
    exact .inl (by rw [hw, PerCamera.get_set_of_ne _ hd])
  case start ho _ _ _ hg => exact .inr (.inl ⟨ho, hg c⟩)
  case spawnFails hw =>
    obtain hw | hw := hw c
    · exact .inl hw
    · exact .inr (.inr hw)
  case other ht        => exact .inl (by rw [ht.captures])

theorem StepTells.own (h : s.StepTells e t) (he : e.action = .thread (.capture c) signal) :
    (s.captures.get c).Goes (t.captures.get c) := by
  cases h
  case capture d _ ha ht =>
    obtain ⟨rfl, _⟩ := by simpa using he.symm.trans ha
    have ⟨own, hw, hg⟩ := ht.own
    rwa [hw, PerCamera.get_set_self]
  case start ha _ _ _ _ _ => cases he.symm.trans ha
  case spawnFails ha _ _ _ _ => cases he.symm.trans ha
  case other ha _       => exact absurd he (ha c signal)

end

theorem config_of_reachable {jpeg : JpegDecoder} {config : Config} {frames : FrameChannel}
    {detections : DetectionChannel} (hs : Reachable (.new jpeg config frames detections) s) :
    s.config = config := by
  induction hs
  case start        => rfl
  case step _ he ih => exact (step_tells he).config.trans ih

-- The controller of a pipeline makes a run of its own, whatever the pipeline does.
theorem run_controller {events : List Event} (h : s.run events = some t) :
    ∃ actions : List Controller.Action, actions.length ≤ events.length ∧
      t.controller = s.controller.after actions := by
  induction events generalizing s
  case nil =>
    obtain rfl : s = t := by simpa [State.run] using h
    exact ⟨[], Nat.le_refl _, rfl⟩
  case cons e events ih =>
    simp only [State.run, List.foldlM_cons] at h
    cases he : s.step e
    case none => simp [he] at h
    case some u =>
      simp only [he] at h
      obtain ⟨actions, hl, ha⟩ := ih h
      rw [(step_tells he).controller] at ha
      cases hd : s.told? e
      case none        => exact ⟨actions, Nat.le_succ_of_le hl, by rw [ha, hd]; rfl⟩
      case some action => exact ⟨action :: actions, Nat.succ_le_succ hl, by rw [ha, hd]; rfl⟩

end State

end Pipeline

end DayNight
