import DayNight.Proofs.Controller.Handshake

namespace DayNight.Controller

namespace Action

-- The time that an action tells. A completion and a report on a camera come without one.
def time? : Action → Option Moment
  | observe sample => some sample.takenAt
  | poll now => some now
  | command _ now => some now
  | fail _ _ now => some now
  | _ => none

end Action

-- What only an order can change.
structure Undisturbed (c d : Controller) : Prop where
  config : d.config = c.config
  mode   : d.mode = c.mode

-- What an action that is no order leads to: the transition that is asked for, and what becomes of
-- the pending one and of the wait after a failure.
inductive Effect (c : Controller) : Action → Option Transition → Controller → Prop
  | asks {call : Action} {now : Moment} {t : Transition} {d : Controller} : c.Undisturbed d →
    call.time? = some now → c.waits now = false → d.active = c.active → d.retryAt = c.retryAt →
    d.pending = some t → Effect c call (some t) d
  | completes {t : Transition} {d : Controller} : c.Undisturbed d →
    c.isPending t → d.active = t.target → d.retryAt = none → d.pending = none →
    Effect c (.complete t) none d
  | fails {t : Transition} {e : SourceError} {now : Moment} {d : Controller} : c.Undisturbed d →
    c.isPending t → d.active = c.active →
    d.retryAt = some (now.after c.config.probeInterval) → d.pending = none →
    Effect c (.fail t e now) none d
  | idles {action : Action} {d : Controller} : c.Undisturbed d →
    d.active = c.active → d.retryAt = c.retryAt → d.pending = c.pending → Effect c action none d

section

variable {c base : Controller} {action : Action} {now : Moment}

theorem Effect.undisturbed {wanted : Option Transition} {d : Controller}
    (h : c.Effect action wanted d) : c.Undisturbed d := by
  cases h <;> assumption

theorem effect_self : c.Effect action none c := .idles ⟨rfl, rfl⟩ rfl rfl rfl

theorem effect_poll (hk : c.Undisturbed base) (ht : action.time? = some now)
    (ha : base.active = c.active) (hr : base.retryAt = c.retryAt)
    (hp : base.pending = c.pending) :
    c.Effect action (base.poll now).1 (base.poll now).2 := by
  cases hw : base.waits now
  case true =>
    rw [poll_of_waits hw]
    exact .idles hk ha hr hp
  case false =>
    cases hd : base.due
    case none =>
      rw [poll_of_not_due hd]
      exact .idles hk ha hr hp
    case some d =>
      rw [poll_of_due hw hd]
      exact .asks ⟨hk.config, hk.mode⟩ ht (by rwa [waits, hr, hp] at hw) ha hr rfl

theorem effect_observe (c : Controller) (sample : BrightnessSample) :
    c.Effect (.observe sample) (c.observe sample).1 (c.observe sample).2 := by
  obtain ⟨_, _, _, h | h⟩ := c.observe_cases sample
  · rw [h]
    exact .idles ⟨rfl, rfl⟩ rfl rfl rfl
  · rw [h]
    exact effect_poll ⟨rfl, rfl⟩ rfl rfl rfl rfl

theorem effect_of_step (ho : ¬ action.IsOrder) :
    c.Effect action (c.step action).1.wanted? (c.step action).2 := by
  cases action
  case observe sample => exact effect_observe c sample
  case poll now       => exact effect_poll ⟨rfl, rfl⟩ rfl rfl rfl rfl
  case command given now =>
    cases hv : given.validate
    case error fault => rw [step, apply_of_error hv]; exact effect_self
    case ok          => exact absurd hv ho
  case complete t =>
    cases hp : c.isPending t
    case false => rw [step, complete_of_not_pending hp]; exact effect_self
    case true  => rw [step, complete_of_pending hp]; exact .completes ⟨rfl, rfl⟩ hp rfl rfl rfl
  case fail t e now =>
    cases hp : c.isPending t
    case false => rw [step, fail_of_not_pending hp]; exact effect_self
    case true  => rw [step, fail_of_pending hp]; exact .fails ⟨rfl, rfl⟩ hp rfl rfl rfl
  case setCaptureDegraded camera degraded error =>
    obtain ⟨_, _, hf⟩ := c.setCaptureDegraded_frame camera degraded error
    rw [step, hf]
    exact .idles ⟨rfl, rfl⟩ rfl rfl rfl

-- In particular the mode lasts.
theorem mode_of_no_order {actions : List Action} (ho : ∀ action ∈ actions, ¬ action.IsOrder) :
    (c.after actions).mode = c.mode := by
  induction actions generalizing c
  case nil => rfl
  case cons action actions ih =>
    have ha := effect_of_step (c := c) (ho action List.mem_cons_self)
    exact (ih fun a h => ho a (List.mem_cons_of_mem _ h)).trans ha.undisturbed.mode

end

end DayNight.Controller
