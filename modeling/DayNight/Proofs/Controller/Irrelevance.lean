import DayNight.Proofs.Controller.Handshake
import Mathlib.Data.Finset.Insert

namespace DayNight.Controller

def Irrelevant (c : Controller) : Action → Prop
  | .observe sample => sample.camera = .night ∨ sample.value.isFinite = false
  | .poll _ => False
  | .command given now => ∃ fault, (c.apply given now).1 = .error fault
  | .complete t => (c.complete t).1 = false
  | .fail t _ _ => c.isPending t = false
  | .setCaptureDegraded camera _ _ => camera ≠ c.active

-- All that a controller knows, but for the brightness by night.
def forgetNight (c : Controller) : Controller :=
  { c with brightness := { c.brightness with night := .empty } }

section

variable {c d : Controller} {action : Action}

theorem remember_of_day (c : Controller) {sample : BrightnessSample} (h : sample.camera = .day) :
    c.forgetNight.remember sample = (c.remember sample).forgetNight := by
  simp [remember, forgetNight, h, PerCamera.modify, PerCamera.set, PerCamera.get]

theorem remember_of_night (c : Controller) {sample : BrightnessSample}
    (h : sample.camera = .night) : (c.remember sample).forgetNight = c.forgetNight := by
  simp [remember, forgetNight, h, PerCamera.modify, PerCamera.set]

theorem trackHold_forgetNight (c : Controller) (value : Float) (now : Moment) :
    c.forgetNight.trackHold value now = (c.trackHold value now).forgetNight := by
  cases ha : c.active
  all_goals
    simp only [trackHold, ha, show c.forgetNight.active = _ from ha]
    rw [apply_ite forgetNight]
    rfl

theorem poll_forgetNight (c : Controller) (now : Moment) :
    c.forgetNight.poll now = Prod.map id forgetNight (c.poll now) := by
  have hw : c.forgetNight.waits now = c.waits now := rfl
  have hd : c.forgetNight.due = c.due := rfl
  cases hcw : c.waits now
  case true => rw [poll_of_waits hcw, poll_of_waits (hw.trans hcw)]; rfl
  case false =>
    cases hcd : c.due
    case none   => rw [poll_of_not_due hcd, poll_of_not_due (hd.trans hcd)]; rfl
    case some d => rw [poll_of_due hcw hcd, poll_of_due (hw.trans hcw) (hd.trans hcd)]; rfl

theorem complete_forgetNight (c : Controller) (t : Transition) :
    c.forgetNight.complete t = Prod.map id forgetNight (c.complete t) := by
  unfold complete
  rw [apply_ite (Prod.map id forgetNight)]
  rfl

theorem fail_forgetNight (c : Controller) (t : Transition) (e : SourceError) (now : Moment) :
    c.forgetNight.fail t e now = (c.fail t e now).forgetNight := by
  unfold fail
  rw [apply_ite forgetNight]
  rfl

theorem setCaptureDegraded_forgetNight (c : Controller) (camera : Camera) (degraded : Bool)
    (error : Option String) : c.forgetNight.setCaptureDegraded camera degraded error =
      (c.setCaptureDegraded camera degraded error).forgetNight := by
  unfold setCaptureDegraded
  rw [apply_ite forgetNight]
  rfl

theorem apply_forgetNight (c : Controller) (given : SwitchCommand) (now : Moment) :
    c.forgetNight.apply given now = Prod.map id forgetNight (c.apply given now) := by
  cases c.bids given
  case nothing hf => rw [apply_of_error hf, apply_of_error hf]; rfl
  case auto hv hm => rw [apply_of_auto hv hm, apply_of_auto hv hm]; rfl
  case stay hm hc =>
    rw [apply_of_manual_active hm hc, apply_of_manual_active (c := c.forgetNight) hm hc]
    rfl
  case leave hm hc ha =>
    rw [apply_of_manual hm hc ha, apply_of_manual (c := c.forgetNight) hm hc ha]
    rfl

theorem observe_forgetNight (c : Controller) (sample : BrightnessSample) :
    (c.forgetNight.observe sample).1 = (c.observe sample).1 ∧
    (c.forgetNight.observe sample).2.forgetNight = (c.observe sample).2.forgetNight := by
  cases hf : sample.value.isFinite
  case false =>
    rw [observe_of_not_finite hf, observe_of_not_finite hf]
    exact ⟨rfl, rfl⟩
  case true =>
    cases hs : sample.camera
    case night =>
      rw [observe_of_night hf hs, observe_of_night hf hs]
      exact ⟨rfl, by rw [remember_of_night _ hs, remember_of_night _ hs]; rfl⟩
    case day =>
      cases hm : c.mode
      case manual =>
        rw [observe_of_manual hf hs hm, observe_of_manual (c := c.forgetNight) hf hs hm,
          remember_of_day _ hs, poll_forgetNight]
        exact ⟨rfl, rfl⟩
      case auto =>
        rw [observe_of_auto hf hs hm, observe_of_auto (c := c.forgetNight) hf hs hm,
          remember_of_day _ hs, trackHold_forgetNight, poll_forgetNight]
        exact ⟨rfl, rfl⟩

-- No answer and nothing else depends on the brightness by night.
theorem step_forgetNight (c : Controller) (action : Action) :
    (c.forgetNight.step action).1 = (c.step action).1 ∧
    (c.forgetNight.step action).2.forgetNight = (c.step action).2.forgetNight := by
  cases action
  case observe sample =>
    have ⟨ha, hd⟩ := c.observe_forgetNight sample
    exact ⟨congrArg Answer.wants ha, hd⟩
  case poll now =>
    simp only [step, poll_forgetNight]
    exact ⟨rfl, rfl⟩
  case command given now =>
    simp only [step, apply_forgetNight]
    rcases c.apply given now with ⟨_ | _, _⟩
    all_goals exact ⟨rfl, rfl⟩
  case complete t =>
    simp only [step, complete_forgetNight]
    exact ⟨rfl, rfl⟩
  case fail t e now =>
    rw [step, step, fail_forgetNight]
    exact ⟨rfl, rfl⟩
  case setCaptureDegraded camera degraded error =>
    rw [step, step, setCaptureDegraded_forgetNight]
    exact ⟨rfl, rfl⟩

theorem Irrelevant.forgetNight (h : c.Irrelevant action) :
    (c.step action).2.forgetNight = c.forgetNight := by
  cases action
  case observe sample =>
    cases hf : sample.value.isFinite
    case false => rw [step, observe_of_not_finite hf]
    case true =>
      have hn : sample.camera = .night := h.resolve_right (by simp [hf])
      rw [step, observe_of_night hf hn]
      exact c.remember_of_night hn
  case poll now => exact absurd h id
  case command given now =>
    obtain ⟨fault, hf⟩ := h
    cases hv : given.validate
    case error => rw [step, apply_of_error hv]
    case ok =>
      obtain ⟨_, _, ha, _⟩ := c.apply_of_ok now hv
      simp [ha] at hf
  case complete t =>
    rw [step, complete_of_not_pending (c.complete_fst t ▸ h)]
  case fail t e now => rw [step, fail_of_not_pending h]
  case setCaptureDegraded camera degraded error =>
    rw [step, setCaptureDegraded, if_neg h]

end

-- What is left of a list without the entries at some positions.
def without {α : Type} (dropped : Finset Nat) (entries : List α) : List α :=
  (entries.zipIdx.filter fun entry => entry.2 ∉ dropped).map (·.1)

theorem without_concat {α : Type} (dropped : Finset Nat) (entries : List α) (last : α) :
    without dropped (entries ++ [last]) =
      without dropped entries ++ if entries.length ∈ dropped then [] else [last] := by
  simp only [without, List.zipIdx_append, List.filter_append, List.map_append]
  split
  case isTrue h  => simp [h]
  case isFalse h => simp [h]

theorem length_run (c : Controller) (actions : List Action) :
    (c.run actions).1.length = actions.length := by
  induction actions generalizing c
  case nil                    => rfl
  case cons action actions ih => simp [run, ih]

theorem step_of_alike {c d : Controller} (h : c.forgetNight = d.forgetNight) (action : Action) :
    (c.step action).1 = (d.step action).1 ∧
    (c.step action).2.forgetNight = (d.step action).2.forgetNight := by
  have ⟨hc, hc'⟩ := c.step_forgetNight action
  have ⟨hd, hd'⟩ := d.step_forgetNight action
  exact ⟨by rw [← hc, ← hd, h], by rw [← hc', ← hd', h]⟩

theorem irrelevant_actions_do_not_matter (c : Controller) (actions : List Action)
    (dropped : Finset Nat)
    (h : ∀ i ∈ dropped, ∀ action ∈ actions[i]?, (c.after (actions.take i)).Irrelevant action) :
    (c.run (without dropped actions)).1 = without dropped (c.run actions).1 ∧
    (c.after (without dropped actions)).forgetNight = (c.after actions).forgetNight := by
  induction actions using List.reverseRecOn
  case nil => exact ⟨rfl, rfl⟩
  case append_singleton actions last ih =>
    have ⟨ha, hd⟩ := ih fun i hi action hm => by
      have hl : i < actions.length := (List.getElem?_eq_some_iff.mp hm).1
      have hi := h i hi action (by rwa [List.getElem?_append_left hl])
      rwa [List.take_append_of_le_length hl.le] at hi
    rw [without_concat, run_concat, without_concat, length_run, after_concat, ← ha]
    split
    case isTrue hl =>
      have hi := h actions.length hl last (by simp)
      rw [List.take_left' rfl] at hi
      simp [hd, hi.forgetNight]
    case isFalse hl =>
      have ⟨hs, hn⟩ := step_of_alike hd last
      exact ⟨by rw [run_concat, hs], by rw [after_concat, hn]⟩

-- A switch to the night camera fails and is tried again, with and without six actions around it.
theorem irrelevant_actions_around_retry :
    let t : Transition := ⟨1, .day, .night, "brightness_low"⟩
    let actions := [
      .observe ⟨.day, 35, ⟨0⟩⟩,
      .observe ⟨.night, 200, ⟨1000000000⟩⟩,
      .observe ⟨.day, 0 / 0, ⟨2000000000⟩⟩,
      .command ⟨.manual, none, none⟩ ⟨3000000000⟩,
      .observe ⟨.day, 30, ⟨10000000000⟩⟩,
      .complete ⟨2, .day, .night, "brightness_low"⟩,
      .setCaptureDegraded .night true (some "unplugged"),
      .fail t (.reading "busy") ⟨10000000000⟩,
      .fail t (.reading "busy") ⟨20000000000⟩,
      .poll ⟨12000000000⟩]
    let dropped : Finset Nat := {1, 2, 3, 5, 6, 8}
    let c := new {}
    (∀ i ∈ dropped, ∀ action ∈ actions[i]?, (c.after (actions.take i)).Irrelevant action) ∧
    (c.run (without dropped actions)).1 = [.wants none, .wants (some t), .nothing,
      .wants (some { t with id := 2 })] ∧
    (c.after (without dropped actions)).forgetNight = (c.after actions).forgetNight := by
  intro t actions dropped c
  have h : ∀ i ∈ dropped, ∀ action ∈ actions[i]?,
      (c.after (actions.take i)).Irrelevant action := by
    simp only [dropped, Finset.mem_insert, Finset.mem_singleton]
    rintro i (rfl | rfl | rfl | rfl | rfl | rfl) action ⟨⟩
    · exact .inl rfl
    · exact .inr (by decide)
    · exact ⟨.cameraMissing, rfl⟩
    · show (complete _ _).1 = false
      decide
    · show Camera.night ≠ Controller.active _
      decide
    · show isPending _ t = false
      decide
  have ⟨ha, hd⟩ := irrelevant_actions_do_not_matter c actions dropped h
  exact ⟨h, ha.trans (by decide), hd⟩

end DayNight.Controller
