import DayNight.Proofs.Controller.History

namespace DayNight

open Controller

-- The timer that has followed a run of readings.
def HoldTimer.ofRun (run : List Reading) : HoldTimer :=
  match run.head?, run.getLast? with
  | some first, some last => ⟨some first.time, last.time.since first.time⟩
  | _, _ => .idle

namespace HoldTimer

theorem ofRun_concat (run : List Reading) (r : Reading) :
    ofRun (run ++ [r]) = (ofRun run).qualify r.time := by
  cases run
  case nil => simp [ofRun, qualify, idle]
  case cons first rest => simp [ofRun, qualify, List.getLast?_cons]

theorem reached_ofRun {hold : Duration} {run : List Reading} :
    (ofRun run).reached hold = true ↔ Lasted hold run := by
  cases run
  case nil => simp [ofRun, reached, idle, Lasted]
  case cons first rest => simp [ofRun, reached, Lasted, List.getLast?_cons]

end HoldTimer

namespace Controller

variable {config : Config.Switcher} {hs : List Happening} {c : Controller}

-- The timer that matters for the active camera.
def timer (c : Controller) : HoldTimer :=
  match c.active with
  | .day => c.below
  | .night => c.above

theorem timer_trackHold (c : Controller) (r : Reading) :
    (c.trackHold r.value r.time).timer =
      if qualifies c.config c.active r then c.timer.qualify r.time else .idle := by
  by_cases hq : qualifies c.config c.active r
  all_goals cases ha : c.active <;> simp_all [trackHold, qualifies, timer]

theorem due_of_auto (hm : c.mode = .auto) :
    c.due =
      if c.timer.reached (holdTime c.config c.active) then some (c.active.other, dueReason c.active)
      else none := by
  cases ha : c.active <;> simp [due, hm, ha, timer, holdTime, dueReason, Camera.other]

-- What the controller knows of its history: the time for the next try after a failure and, in
-- automatic mode, the run of readings that calls for a switch.
structure Tracks (config : Config.Switcher) (hs : List Happening) (c : Controller) : Prop where
  config_eq : c.config = config
  retry     : c.retryAt = retryTime hs
  timer     : c.mode = .auto → c.timer = .ofRun (holdRun config c.active hs)

namespace Tracks

theorem ofNew (config : Config.Switcher) : Tracks config [] (new config) where
  config_eq := rfl
  retry     := rfl
  timer _   := by
    simp only [holdRun, readings, recent, List.rtakeWhile_nil, List.filterMap_nil]
    cases hc : config.initialCamera <;> simp [Controller.timer, new, hc, HoldTimer.ofRun]

theorem restart (hc : c.config = config) (hr : c.retryAt = none) (hb : c.below = .idle)
    (ha : c.above = .idle) : Tracks config (hs ++ [.restart]) c where
  config_eq := hc
  retry     := by simp [hr]
  timer _   := by
    cases h : c.active <;> simp [Controller.timer, h, ha, hb, holdRun, HoldTimer.ofRun]

theorem other (h : Tracks config hs c) : Tracks config (hs ++ [.other]) c where
  config_eq := h.config_eq
  retry     := by simp [h.retry]
  timer hm  := by simp [h.timer hm, holdRun]

-- In manual mode readings leave the timers as they are.
theorem reading_of_manual (h : Tracks config hs c) (hm : c.mode = .manual) (r : Reading) :
    Tracks config (hs ++ [.reading r]) c where
  config_eq := h.config_eq
  retry     := by simp [h.retry]
  timer ha  := by simp [hm] at ha

theorem reading_of_auto (h : Tracks config hs c) (hm : c.mode = .auto) (r : Reading) :
    Tracks config (hs ++ [.reading r]) (c.trackHold r.value r.time) := by
  have ht := c.timer_trackHold r
  have ⟨below, above, hf⟩ := c.trackHold_frame r.value r.time
  rw [hf] at ht ⊢
  refine ⟨h.config_eq, by simp [h.retry], fun _ => ?_⟩
  rw [ht, h.config_eq, h.timer hm, holdRun_concat_reading]
  split
  case isTrue => exact (HoldTimer.ofRun_concat _ r).symm
  case isFalse => rfl

-- A poll does not move the timers.
theorem poll (h : Tracks config hs c) (now : Moment) : Tracks config hs (c.poll now).2 := by
  have ⟨id, pending, hp⟩ := c.poll_frame now
  rw [hp]
  exact ⟨h.config_eq, h.retry, h.timer⟩

theorem observe (h : Tracks config hs c) (sample : BrightnessSample) :
    Tracks config (hs ++ [c.happening (.observe sample)]) (c.observe sample).2 := by
  have hr : Tracks config hs (c.remember sample) := ⟨h.config_eq, h.retry, h.timer⟩
  rw [happening_observe]
  cases hf : sample.value.isFinite
  case false => simpa [observe_of_not_finite hf] using h.other
  case true =>
    cases hd : sample.camera
    case night => simpa [observe_of_night hf hd] using hr.other
    case day =>
      cases hm : c.mode
      case manual =>
        simpa [observe_of_manual hf hd hm] using
          (hr.reading_of_manual hm ⟨sample.value, sample.takenAt⟩).poll sample.takenAt
      case auto =>
        simpa [observe_of_auto hf hd hm] using
          (hr.reading_of_auto hm ⟨sample.value, sample.takenAt⟩).poll sample.takenAt

theorem command (h : Tracks config hs c) (command : SwitchCommand) (now : Moment) :
    Tracks config (hs ++ [c.happening (.command command now)])
      (c.step (.command command now)).2 := by
  cases hv : command.validate
  case error fault =>
    rw [happening_command_of_error hv]
    simpa [Controller.step, apply_of_error hv] using h.other
  case ok =>
    obtain ⟨_, d, ha, hc, _, hb, hab, hr, _⟩ := c.apply_of_ok now hv
    rw [happening_command_of_ok hv]
    simpa [Controller.step, ha] using restart (hc.trans h.config_eq) hr hb hab

theorem complete (h : Tracks config hs c) (t : Transition) :
    Tracks config (hs ++ [c.happening (.complete t)]) (c.complete t).2 := by
  rw [happening_complete]
  cases hp : c.isPending t
  case true =>
    rw [complete_of_pending hp, if_pos rfl]
    exact restart h.config_eq rfl rfl rfl
  case false => simpa [complete_of_not_pending hp] using h.other

theorem fail (h : Tracks config hs c) (t : Transition) (e : SourceError) (now : Moment) :
    Tracks config (hs ++ [c.happening (.fail t e now)]) (c.fail t e now) := by
  rw [happening_fail]
  cases hp : c.isPending t
  case true =>
    rw [fail_of_pending hp, if_pos rfl]
    exact ⟨h.config_eq, by simp, fun hm => (h.timer hm).trans (by simp [holdRun])⟩
  case false => simpa [fail_of_not_pending hp] using h.other

theorem step (h : Tracks config hs c) (action : Action) :
    Tracks config (hs ++ [c.happening action]) (c.step action).2 := by
  cases action
  case observe sample           => exact h.observe sample
  case poll now                 => exact (h.poll now).other
  case command command now      => exact h.command command now
  case complete t               => exact h.complete t
  case fail t e now             => exact h.fail t e now
  case setCaptureDegraded r d e =>
    have ⟨_, _, hf⟩ := c.setCaptureDegraded_frame r d e
    simp only [Controller.step, hf]
    exact ⟨h.other.config_eq, h.other.retry, h.other.timer⟩

theorem run (config : Config.Switcher) (actions : List Action) :
    Tracks config ((new config).happenings actions) ((new config).after actions) := by
  induction actions using List.reverseRecOn
  case nil => exact ofNew config
  case append_singleton actions action ih =>
    rw [happenings_concat, after_append]
    exact ih.step action

theorem poll_wants_iff (h : Tracks config hs c) (hm : c.mode = .auto) (now : Moment) :
    (c.poll now).1.isSome ↔ c.pending = none ∧ (∀ time ∈ retryTime hs, ¬ now < time) ∧
      Lasted (holdTime config c.active) (holdRun config c.active hs) := by
  have hd := due_of_auto hm
  rw [h.config_eq, h.timer hm] at hd
  rw [← h.retry, ← and_assoc, ← waits_eq_false, ← HoldTimer.reached_ofRun]
  cases hw : c.waits now
  case true => simp [poll_of_waits hw]
  case false =>
    split at hd
    case isTrue hr  => simp [poll_of_due hw hd, begin, hr]
    case isFalse hr => simp [poll_of_not_due hd, hr]

end Tracks

theorem poll_wants_other (hm : c.mode = .auto) {now : Moment} {t : Transition}
    (h : (c.poll now).1 = some t) :
    t = ⟨c.nextId, c.active, c.active.other, dueReason c.active⟩ := by
  cases hw : c.waits now
  case true => simp [poll_of_waits hw] at h
  case false =>
    have hd := due_of_auto hm
    split at hd
    case isTrue  => simpa [poll_of_due hw hd, begin] using h.symm
    case isFalse => simp [poll_of_not_due hd] at h

-- The time at which an action lets the controller ask for a switch by itself, if it does.
def Action.asksAt? : Action → Option Moment
  | .observe sample =>
    if sample.camera = .day ∧ sample.value.isFinite then some sample.takenAt else none
  | .poll now => some now
  | _ => none

def Action.isQuery : Action → Bool
  | .observe _ | .poll _ => true
  | _ => false

-- A query either cannot lead to a switch at all, or it polls a controller that differs at most in
-- its timers and in what it remembers of the brightness.
theorem Tracks.query (h : Tracks config hs c) (hm : c.mode = .auto) {call : Action}
    (hq : call.isQuery) :
    (call.asksAt? = none ∧ (c.step call).1.wanted? = none) ∨
    ∃ now d, call.asksAt? = some now ∧ (c.step call).1.wanted? = (d.poll now).1 ∧
      Tracks config (hs ++ [c.happening call]) d ∧ d.mode = .auto ∧ d.active = c.active ∧
      d.pending = c.pending ∧ d.nextId = c.nextId := by
  cases call <;> simp only [Action.isQuery, Bool.false_eq_true] at hq
  case poll now => exact .inr ⟨now, c, rfl, rfl, h.other, hm, rfl, rfl, rfl⟩
  case observe sample =>
    simp only [Action.asksAt?, happening_observe, Controller.step, Answer.wanted?]
    split
    case isTrue hd =>
      have hr : Tracks config hs (c.remember sample) := ⟨h.config_eq, h.retry, h.timer⟩
      have ht := hr.reading_of_auto hm ⟨sample.value, sample.takenAt⟩
      obtain ⟨_, _, hf⟩ := (c.remember sample).trackHold_frame sample.value sample.takenAt
      rw [observe_of_auto hd.2 hd.1 hm, hf]
      rw [hf] at ht
      exact .inr ⟨_, _, rfl, rfl, ht, hm, rfl, rfl, rfl⟩
    case isFalse hd =>
      refine .inl ⟨rfl, ?_⟩
      cases hf : sample.value.isFinite
      case false => simp [observe_of_not_finite hf]
      case true =>
        cases hc : sample.camera
        case day   => exact absurd ⟨hc, hf⟩ hd
        case night => simp [observe_of_night hf hc]

theorem wants_switch_iff_lasted (config : Config.Switcher) (before : List Action) (call : Action)
    (hq : call.isQuery) (hm : ((new config).after before).mode = .auto) :
    let c := (new config).after before
    let hs := (new config).happenings (before ++ [call])
    ((c.step call).1.wanted?.isSome ↔
      ∃ now, call.asksAt? = some now ∧ c.pending = none ∧ (∀ time ∈ retryTime hs, ¬ now < time) ∧
        Lasted (holdTime config c.active) (holdRun config c.active hs)) ∧
    (∀ t, (c.step call).1.wanted? = some t →
      t = ⟨c.nextId, c.active, c.active.other, dueReason c.active⟩) := by
  intro c hs
  have hhs : hs = (new config).happenings before ++ [c.happening call] := happenings_concat ..
  have h : Tracks config ((new config).happenings before) c := .run config before
  obtain ⟨ha, hw⟩ | ⟨now, d, ha, hw, ht, hdm, hda, hdp, hdi⟩ := h.query hm hq
  · simp [ha, hw]
  · rw [hw, ha, hhs, ← hda, ← hdp, ← hdi]
    refine ⟨?_, fun t => poll_wants_other hdm⟩
    simpa using ht.poll_wants_iff hdm now

-- It has been dark for ten seconds, but the night camera was busy two seconds ago.
theorem wants_switch_again_after_failure :
    let before := [
      .observe ⟨.day, 45, ⟨0⟩⟩,
      .observe ⟨.day, 35, ⟨0⟩⟩,
      .observe ⟨.day, 30, ⟨10000000000⟩⟩,
      .fail ⟨1, .day, .night, "brightness_low"⟩ (.reading "busy") ⟨10000000000⟩]
    let call := .poll ⟨12000000000⟩
    let c := (new {}).after before
    call.isQuery ∧ c.mode = .auto ∧ (c.step call).1.wanted?.isSome := by
  intro before call c
  have hm : c.mode = .auto := by decide
  refine ⟨rfl, hm, (wants_switch_iff_lasted {} before call rfl hm).1.mpr ?_⟩
  refine ⟨⟨12000000000⟩, rfl, by decide, ?_, ?_⟩
  · have hr : retryTime ((new {}).happenings (before ++ [call])) = some ⟨12000000000⟩ := by decide
    simp [hr, show ¬ (⟨12000000000⟩ : Moment) < ⟨12000000000⟩ by decide]
  · exact ⟨⟨35, ⟨0⟩⟩, rfl, ⟨30, ⟨10000000000⟩⟩, rfl, by decide⟩

end Controller

end DayNight
