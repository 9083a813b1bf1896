import DayNight.Controller.Status
import DayNight.Proofs.Controller.Handshake

namespace DayNight.Controller

variable {config : Config.Switcher} {camera : Camera} {before actions : List Action}
  {c d : Controller} {action : Action}

-- The actions from the beginning of manual control up to the next command. It begins with the
-- controller itself or with a command.
inductive Manual (config : Config.Switcher) (camera : Camera) :
    List Action → List Action → Prop
  | initially {actions : List Action} : config.initialMode = .manual →
    config.initialCamera = camera → (∀ action ∈ actions, ¬ action.IsOrder) →
    Manual config camera [] actions
  | commanded {before actions : List Action} {given : SwitchCommand} {now : Moment} :
    given.mode = .manual → given.camera = some camera →
    (∀ action ∈ actions, ¬ action.IsOrder) →
    Manual config camera before (.command given now :: actions)

-- A controller that is after one camera. A switch to it may be pending, and no readings count.
structure Obeys (camera : Camera) (c : Controller) : Prop where
  mode    : c.mode = .manual
  target  : c.manualTarget = some camera
  below   : c.below = .idle
  above   : c.above = .idle
  pending : ∀ p, c.pending = some p → p.target = camera ∧ c.active ≠ camera

-- What comes of an action then.
structure Heeds (camera : Camera) (c : Controller) (wanted : Option Transition) (d : Controller) :
    Prop where
  wants  : ∀ t, wanted = some t → t.target = camera ∧ c.active ≠ camera
  active : d.active = c.active ∨ d.active = camera
  obeys  : Obeys camera d

namespace Obeys

theorem ofNew (hm : config.initialMode = .manual) (hc : config.initialCamera = camera) :
    Obeys camera (new config) where
  mode    := hm
  target  := by simp [new, hm, hc]
  below   := rfl
  above   := rfl
  pending := nofun

theorem ofIdle (hm : c.mode = .manual) (ht : c.manualTarget = some camera) (hb : c.below = .idle)
    (ha : c.above = .idle) (hp : c.pending = none) : Obeys camera c :=
  ⟨hm, ht, hb, ha, fun _ h => nomatch hp.symm.trans h⟩

theorem unasked (h : Obeys camera d) (ha : d.active = c.active ∨ d.active = camera) :
    Heeds camera c none d := ⟨nofun, ha, h⟩

theorem quiet (h : Obeys camera c) : Heeds camera c none c := h.unasked (.inl rfl)

theorem poll (h : Obeys camera c) (now : Moment) :
    Heeds camera c (c.poll now).1 (c.poll now).2 := by
  cases hw : c.waits now
  case true => rw [poll_of_waits hw]; exact h.quiet
  case false =>
    by_cases ha : camera = c.active
    case pos =>
      have hd : c.due = none := by simp [due, h.mode, h.target, ha]
      rw [poll_of_not_due hd]
      exact h.quiet
    case neg =>
      have hd : c.due = some (camera, "manual") := by simp [due, h.mode, h.target, ha]
      rw [poll_of_due hw hd]
      refine ⟨?_, .inl rfl, h.mode, h.target, h.below, h.above, ?_⟩
      all_goals
        rintro _ ⟨⟩
        exact ⟨rfl, Ne.symm ha⟩

theorem observe (h : Obeys camera c) (sample : BrightnessSample) :
    Heeds camera c (c.observe sample).1 (c.observe sample).2 := by
  have hr : Obeys camera (c.remember sample) := ⟨h.mode, h.target, h.below, h.above, h.pending⟩
  cases hf : sample.value.isFinite
  case false => rw [observe_of_not_finite hf]; exact h.quiet
  case true =>
    cases hs : sample.camera
    case night =>
      rw [observe_of_night hf hs]
      exact hr.unasked (.inl rfl)
    case day =>
      rw [observe_of_manual hf hs h.mode]
      have hp := hr.poll sample.takenAt
      exact ⟨hp.wants, hp.active, hp.obeys⟩

theorem step (h : Obeys camera c) (ho : ¬ action.IsOrder)
    (hs : ∀ t, c.settles? action = some t → c.pending = some t) :
    Heeds camera c (c.step action).1.wanted? (c.step action).2 := by
  cases action
  case observe sample => exact h.observe sample
  case poll now       => exact h.poll now
  case command given now =>
    cases hv : given.validate
    case error fault => rw [Controller.step, apply_of_error hv]; exact h.quiet
    case ok          => exact absurd hv ho
  case complete t =>
    cases hp : c.isPending t
    case false => rw [Controller.step, complete_of_not_pending hp]; exact h.quiet
    case true =>
      have ht := (h.pending t (hs t (settles?_eq_some.mpr ⟨rfl, hp⟩))).1
      rw [Controller.step, complete_of_pending hp]
      exact unasked (.ofIdle h.mode h.target rfl rfl rfl) (.inr ht)
  case fail t e now =>
    cases hp : c.isPending t
    case false => rw [Controller.step, fail_of_not_pending hp]; exact h.quiet
    case true =>
      rw [Controller.step, fail_of_pending hp]
      exact unasked (.ofIdle h.mode h.target h.below h.above rfl) (.inl rfl)
  case setCaptureDegraded camera degraded error =>
    obtain ⟨_, _, hf⟩ := c.setCaptureDegraded_frame camera degraded error
    rw [Controller.step, hf]
    exact unasked ⟨h.mode, h.target, h.below, h.above, h.pending⟩ (.inl rfl)

end Obeys

-- The command itself, whatever was going on before.
theorem heeds_command {given : SwitchCommand} {now : Moment} (hm : given.mode = .manual)
    (hc : given.camera = some camera) :
    Heeds camera c (c.step (.command given now)).1.wanted? (c.step (.command given now)).2 := by
  by_cases ha : camera = c.active
  case pos =>
    subst ha
    rw [step, apply_of_manual_active hm hc]
    exact Obeys.unasked (.ofIdle rfl rfl rfl rfl rfl) (.inl rfl)
  case neg =>
    rw [step, apply_of_manual hm hc ha]
    refine ⟨?_, .inl rfl, rfl, rfl, rfl, rfl, ?_⟩
    all_goals
      rintro _ ⟨⟩
      exact ⟨rfl, Ne.symm ha⟩

-- A report that counts is one on the pending transition.
theorem pending_of_settles (h : (new config).ReportsAsked (actions ++ [action])) (t : Transition)
    (hs : ((new config).after actions).settles? action = some t) :
    ((new config).after actions).pending = some t := by
  have ⟨hr, ho⟩ := reportsAsked_concat.mp h
  have ⟨ht, hp⟩ := settles?_eq_some.mp hs
  exact (Accounts.run hr).pending_eq (ho t ht) hp

namespace Manual

variable {first rest : List Action}

-- An action under manual control is the command with which it begins, or no command.
theorem begins_or_not_order (h : Manual config camera before actions)
    (hp : first ++ [action] <+: actions) :
    (first = [] ∧ ∃ given now, action = .command given now ∧ given.mode = .manual ∧
      given.camera = some camera) ∨
    (¬ action.IsOrder ∧ (first = [] → Obeys camera ((new config).after before))) := by
  cases h
  case initially hm hc hn =>
    exact .inr ⟨hn action (hp.subset (by simp)), fun _ => .ofNew hm hc⟩
  case commanded actions given now hm hc hn =>
    cases first
    case nil =>
      obtain ⟨rfl, _⟩ := List.cons_prefix_cons.mp hp
      exact .inl ⟨rfl, given, now, rfl, hm, hc⟩
    case cons opening first =>
      have hp : first ++ [action] <+: actions := (List.cons_prefix_cons.mp hp).2
      exact .inr ⟨hn action (hp.subset (by simp)), nofun⟩

theorem heeds (h : Manual config camera before actions)
    (hr : (new config).ReportsAsked (before ++ actions)) (hp : first ++ [action] <+: actions) :
    Heeds camera ((new config).after (before ++ first))
      (((new config).after (before ++ first)).step action).1.wanted?
      (((new config).after (before ++ first)).step action).2 := by
  induction first using List.reverseRecOn generalizing action
  case nil =>
    have hs := pending_of_settles (hr.of_prefix ((List.prefix_append_right_inj before).mpr hp))
    obtain ⟨_, given, now, rfl, hm, hc⟩ | ⟨ho, hb⟩ := h.begins_or_not_order hp
    · exact heeds_command hm hc
    · rw [List.append_nil]
      exact (hb rfl).step ho hs
  case append_singleton first last ih =>
    have hl : Obeys camera ((new config).after (before ++ (first ++ [last]))) := by
      rw [← List.append_assoc, after_concat]
      exact (ih ((List.prefix_append ..).trans hp)).obeys
    have hr := hr.of_prefix ((List.prefix_append_right_inj before).mpr hp)
    rw [← List.append_assoc] at hr
    obtain ⟨hf, _⟩ | ⟨ho, _⟩ := h.begins_or_not_order hp
    · simp at hf
    · exact hl.step ho (pending_of_settles hr)

theorem obeys (h : Manual config camera before actions)
    (hr : (new config).ReportsAsked (before ++ actions)) :
    Obeys camera ((new config).after (before ++ actions)) := by
  obtain rfl | ⟨first, last, rfl⟩ := actions.eq_nil_or_concat
  · cases h
    case initially hm hc _ => exact .ofNew hm hc
  · rw [List.concat_eq_append] at h hr ⊢
    rw [← List.append_assoc, after_concat]
    exact (h.heeds hr (List.prefix_refl _)).obeys

-- Once the camera is active, nothing is asked for any more and it stays active.
theorem stays (h : Manual config camera before actions)
    (hr : (new config).ReportsAsked (before ++ actions)) (hp : first ++ rest <+: actions)
    (ha : ((new config).after (before ++ first)).active = camera) :
    ((new config).after (before ++ first)).asked rest = [] ∧
    (((new config).after (before ++ first)).after rest).active = camera := by
  induction rest using List.reverseRecOn
  case nil => exact ⟨rfl, ha⟩
  case append_singleton rest last ih =>
    rw [← List.append_assoc] at hp
    have ⟨hw, hs⟩ := ih ((List.prefix_append ..).trans hp)
    have hh := h.heeds hr hp
    rw [← List.append_assoc, after_append] at hh
    rw [asked_concat, hw, after_concat]
    constructor
    · cases hn : ((((new config).after (before ++ first)).after rest).step last).1.wanted?
      case none   => simp
      case some t => exact absurd hs (hh.wants t hn).2
    · obtain he | he := hh.active
      · exact he.trans hs
      · exact he

end Manual

-- So a switch that was asked for before, by itself or by hand, comes to nothing.
theorem manual_override (h : Manual config camera before actions)
    (hr : (new config).ReportsAsked (before ++ actions)) :
    (∀ first action, first ++ [action] <+: actions →
      let c := (new config).after (before ++ first)
      (∀ t, (c.step action).1.wanted? = some t → t.target = camera ∧ c.active ≠ camera) ∧
      ((c.step action).2.active ≠ c.active → (c.step action).2.active = camera)) ∧
    (∀ first rest, first ++ rest = actions →
      let c := (new config).after (before ++ first)
      c.active = camera → c.asked rest = [] ∧ (c.after rest).active = camera) ∧
    let status := ((new config).after (before ++ actions)).status
    status.dayHoldElapsed = .zero ∧ status.nightHoldElapsed = .zero := by
  refine ⟨fun first action hp => ?_, fun first rest hl => ?_, ?_⟩
  · have hh := h.heeds hr hp
    exact ⟨hh.wants, hh.active.resolve_left⟩
  · exact h.stays hr (hl ▸ List.prefix_refl _)
  · have ho := h.obeys hr
    simp [status, ho.below, ho.above, HoldTimer.idle]

-- A switch to the night camera is under way when the day camera is ordered.
theorem manual_override_under_way :
    let before : List Action := [.observe ⟨.day, 35, ⟨0⟩⟩, .observe ⟨.day, 30, ⟨10000000000⟩⟩]
    let actions : List Action := [.command ⟨.manual, some .day, none⟩ ⟨11000000000⟩,
      .complete ⟨1, .day, .night, "brightness_low"⟩, .observe ⟨.day, 20, ⟨30000000000⟩⟩,
      .poll ⟨60000000000⟩]
    let c := (new {}).after before
    Manual {} .day before actions ∧ (new {}).ReportsAsked (before ++ actions) ∧
    c.pending.isSome ∧ c.asked actions = [] ∧ (c.after actions).active = .day := by
  intro before actions c
  have hm : Manual {} .day before actions := .commanded rfl rfl (by simp [Action.IsOrder])
  have hr : (new {}).ReportsAsked (before ++ actions) := by decide
  obtain ⟨_, hs, _⟩ := manual_override hm hr
  obtain ⟨ha, hd⟩ := hs [] actions rfl (by decide)
  exact ⟨hm, hr, by decide, ha, hd⟩

end DayNight.Controller
