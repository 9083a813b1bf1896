import DayNight.Controller.Run

namespace DayNight.Controller

variable {c : Controller} {now : Moment}

-- A poll that need not wait begins the switch that is due; any other poll changes nothing.
theorem poll_of_waits (h : c.waits now = true) : c.poll now = (none, c) := by
  simp [poll, h]

theorem poll_of_not_due (h : c.due = none) : c.poll now = (none, c) := by
  simp [poll, h]

theorem poll_of_due {target : Camera} {reason : String} (hw : c.waits now = false)
    (hd : c.due = some (target, reason)) : c.poll now = c.begin target reason := by
  simp [poll, hw, hd]

-- What is due is a switch to the other camera.
theorem target_of_due {target : Camera} {reason : String} (h : c.due = some (target, reason)) :
    target = c.active.other := by
  cases hm : c.mode
  case manual =>
    cases ht : c.manualTarget
    case none => simp [due, hm, ht] at h
    case some manual =>
      by_cases ha : manual = c.active
      case pos => simp [due, hm, ht, ha] at h
      case neg =>
        simp only [due, hm, ht, ha, if_false, Option.some.injEq, Prod.mk.injEq] at h
        exact h.1 ▸ Camera.eq_other_of_ne ha
  case auto =>
    cases ha : c.active
    all_goals
      simp only [due, hm, ha] at h
      split at h
      case isTrue  => cases h; rfl
      case isFalse => cases h

theorem poll_cases (c : Controller) (now : Moment) :
    (c.poll now = (none, c)) ∨ (∃ reason, c.poll now = c.begin c.active.other reason) := by
  cases hw : c.waits now
  case true => exact .inl (poll_of_waits hw)
  case false =>
    cases hd : c.due
    case none => exact .inl (poll_of_not_due hd)
    case some d => exact .inr ⟨d.2, target_of_due hd ▸ poll_of_due hw hd⟩

theorem poll_frame (c : Controller) (now : Moment) :
    ∃ id pending, (c.poll now).2 = { c with nextId := id, pending := pending } := by
  obtain h | ⟨reason, h⟩ := c.poll_cases now
  · exact ⟨c.nextId, c.pending, by rw [h]⟩
  · exact ⟨c.nextId + 1, some ⟨c.nextId, c.active, c.active.other, reason⟩, by rw [h]; rfl⟩

theorem trackHold_frame (c : Controller) (value : Float) (now : Moment) :
    ∃ below above, c.trackHold value now = { c with below := below, above := above } := by
  unfold trackHold
  split <;> split
  all_goals exact ⟨_, _, rfl⟩

theorem waits_eq_false : c.waits now = false ↔
    c.pending = none ∧ ∀ time ∈ c.retryAt, ¬ now < time := by
  cases hr : c.retryAt <;> cases hp : c.pending <;> simp [waits, hr, hp]

section Observe

variable {sample : BrightnessSample}

def remember (c : Controller) (sample : BrightnessSample) : Controller :=
  { c with brightness := c.brightness.modify sample.camera (·.record sample.value) }

theorem observe_of_not_finite (hf : sample.value.isFinite = false) :
    c.observe sample = (none, c) := by
  simp [observe, hf]

theorem observe_of_night (hf : sample.value.isFinite = true) (hn : sample.camera = .night) :
    c.observe sample = (none, c.remember sample) := by
  simp [observe, hf, hn, remember]

theorem observe_of_manual (hf : sample.value.isFinite = true) (hd : sample.camera = .day)
    (hm : c.mode = .manual) : c.observe sample = (c.remember sample).poll sample.takenAt := by
  simp [observe, hf, hd, hm, remember]

theorem observe_of_auto (hf : sample.value.isFinite = true) (hd : sample.camera = .day)
    (hm : c.mode = .auto) :
    c.observe sample =
      ((c.remember sample).trackHold sample.value sample.takenAt).poll sample.takenAt := by
  simp [observe, hf, hd, hm, remember]

-- A reading changes at most what is remembered of the brightness and the runs, and polls at most.
theorem observe_cases (c : Controller) (sample : BrightnessSample) : ∃ brightness below above,
    let base := { c with brightness := brightness, below := below, above := above }
    c.observe sample = (none, base) ∨ c.observe sample = base.poll sample.takenAt := by
  cases hf : sample.value.isFinite
  case false => exact ⟨_, _, _, .inl (observe_of_not_finite hf)⟩
  case true =>
    cases hs : sample.camera
    case night => exact ⟨_, _, _, .inl (observe_of_night hf hs)⟩
    case day =>
      have hm : c.mode = .manual ∨ c.mode = .auto := by cases c.mode <;> simp
      obtain hm | hm := hm
      · exact ⟨_, _, _, .inr (observe_of_manual hf hs hm)⟩
      · obtain ⟨_, _, hh⟩ := (c.remember sample).trackHold_frame sample.value sample.takenAt
        exact ⟨_, _, _, .inr (hh ▸ observe_of_auto hf hs hm)⟩

end Observe

section Apply

variable {command : SwitchCommand}

theorem apply_of_error {fault : CommandFault} (h : command.validate = .error fault) :
    c.apply command now = (.error fault, c) := by
  simp [apply, h]

theorem apply_of_auto (h : command.validate = .ok ()) (hm : command.mode = .auto) :
    c.apply command now = (.ok none, { c.superseded with
      mode := .auto
      manualTarget := none
      lastSwitchReason := command.reason.getD "auto-resume" }) := by
  -- The runs have just ended, so nothing can be due.
  have hd : ∀ d : Controller, d.mode = .auto → d.below = .idle → d.above = .idle →
      d.poll now = (none, d) := by
    intro d hm hb ha
    apply poll_of_not_due
    cases hc : d.active <;> simp [due, hm, hc, ha, hb, HoldTimer.reached, HoldTimer.idle]
  cases hc : command.camera
  all_goals simp [apply, h, hm, hc, hd, superseded]

theorem apply_of_manual {camera : Camera} (hm : command.mode = .manual)
    (hc : command.camera = some camera) (ha : camera ≠ c.active) :
    c.apply command now =
      let manual := { c.superseded with mode := .manual, manualTarget := some camera }
      (.ok (manual.begin camera (command.reason.getD "manual")).1,
        (manual.begin camera (command.reason.getD "manual")).2) := by
  simp [apply, SwitchCommand.validate, hm, hc, ha, superseded]

theorem apply_of_manual_active (hm : command.mode = .manual)
    (hc : command.camera = some c.active) :
    c.apply command now = (.ok none, { c.superseded with
      mode := .manual
      manualTarget := some c.active
      lastSwitchReason := command.reason.getD "manual"
      transitionFailed := false
      lastError := none }) := by
  simp [apply, SwitchCommand.validate, hm, hc, superseded]

-- What a command asks for. None that is refused asks for anything.
inductive Bids (c : Controller) (command : SwitchCommand) : Prop
  | nothing {fault : CommandFault} : command.validate = .error fault → Bids c command
  | auto  : command.validate = .ok () → command.mode = .auto → Bids c command
  | stay  : command.mode = .manual → command.camera = some c.active → Bids c command
  | leave {camera : Camera} : command.mode = .manual → command.camera = some camera →
    camera ≠ c.active → Bids c command

theorem bids (c : Controller) (command : SwitchCommand) : c.Bids command := by
  cases hv : command.validate
  case error => exact .nothing hv
  case ok =>
    cases hm : command.mode
    case auto => exact .auto hv hm
    case manual =>
      cases hc : command.camera
      case none => simp [SwitchCommand.validate, hm, hc] at hv
      case some camera =>
        by_cases ha : camera = c.active
        case pos => exact .stay hm (ha ▸ hc)
        case neg => exact .leave hm hc ha

-- Every command that is accepted ends the runs, the wait after a failure and the pending switch.
theorem apply_of_ok (c : Controller) (now : Moment) (h : command.validate = .ok ()) :
    ∃ transition d, c.apply command now = (.ok transition, d) ∧ d.config = c.config ∧
      d.active = c.active ∧ d.below = .idle ∧ d.above = .idle ∧ d.retryAt = none ∧
      d.pending = transition := by
  cases c.bids command
  case nothing hf     => cases h.symm.trans hf
  case auto hv hm     => exact ⟨_, _, apply_of_auto hv hm, rfl, rfl, rfl, rfl, rfl, rfl⟩
  case stay hm hc     => exact ⟨_, _, apply_of_manual_active hm hc, rfl, rfl, rfl, rfl, rfl, rfl⟩
  case leave hm hc ha => exact ⟨_, _, apply_of_manual hm hc ha, rfl, rfl, rfl, rfl, rfl, rfl⟩

end Apply

theorem complete_of_pending {t : Transition} (h : c.isPending t = true) :
    c.complete t = (true, { c with
      pending := none
      active := t.target
      retryAt := none
      transitionFailed := false
      captureDegraded := false
      lastError := none
      below := .idle
      above := .idle
      lastSwitchReason := t.reason
      switchCount := c.switchCount + 1 }) := by
  simp [complete, h]

theorem complete_of_not_pending {t : Transition} (h : c.isPending t = false) :
    c.complete t = (false, c) := by
  simp [complete, h]

theorem complete_fst (c : Controller) (t : Transition) : (c.complete t).1 = c.isPending t := by
  cases h : c.isPending t
  case false => rw [complete_of_not_pending h]
  case true  => rw [complete_of_pending h]

theorem fail_of_pending {t : Transition} {e : SourceError} (h : c.isPending t = true) :
    c.fail t e now = { c with
      pending := none
      retryAt := some (now.after c.config.probeInterval)
      transitionFailed := true
      lastError := some (failureText t.target e) } := by
  simp [fail, h]

theorem fail_of_not_pending {t : Transition} {e : SourceError} (h : c.isPending t = false) :
    c.fail t e now = c := by
  simp [fail, h]

theorem setCaptureDegraded_frame (c : Controller) (camera : Camera) (degraded : Bool)
    (error : Option String) : ∃ captureDegraded lastError,
      c.setCaptureDegraded camera degraded error =
        { c with captureDegraded := captureDegraded, lastError := lastError } := by
  unfold setCaptureDegraded
  split
  all_goals exact ⟨_, _, rfl⟩

end DayNight.Controller
