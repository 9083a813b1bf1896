import DayNight.Controller.Status
import DayNight.Proofs.Controller.Handshake

namespace DayNight.Controller

-- A report that counts: on the pending switch, or on the active camera.
def Hears (c : Controller) : Action → Prop
  | .complete t                    => c.isPending t
  | .fail t _ _                    => c.isPending t
  | .setCaptureDegraded camera _ _ => camera = c.active
  | _                              => False

def Unheard (c : Controller) : List Action → Prop
  | []                => True
  | action :: actions => ¬ c.Hears action ∧ (c.step action).2.Unheard actions

-- A manual command for the camera that is active anyway. None of these is refused.
def Confirms (c : Controller) : Action → Prop
  | .command given _ => given.mode = .manual ∧ given.camera = some c.active
  | _                => False

-- A manual command for the active camera while that keeps failing.
def Silences (c : Controller) : Action → Prop
  | .command given _ => given.mode = .manual ∧ given.camera = some c.active ∧ c.captureDegraded
  | _                => False

-- What an action makes of the two flags that degrade the status, and of the text.
inductive Marks (c : Controller) : Action → Controller → Prop
  | settles {given : SwitchCommand} {now : Moment} {d : Controller} :
    given.mode = .manual → given.camera = some c.active → d.captureDegraded = c.captureDegraded →
    d.transitionFailed = false → d.lastError = none → Marks c (.command given now) d
  | completes {t : Transition} {d : Controller} : c.isPending t →
    d.captureDegraded = false → d.transitionFailed = false → Marks c (.complete t) d
  | fails {t : Transition} {e : SourceError} {now : Moment} {d : Controller} : c.isPending t →
    d.captureDegraded = c.captureDegraded → d.transitionFailed = true →
    d.lastError = some (failureText t.target e) → Marks c (.fail t e now) d
  | reports {camera : Camera} {degraded : Bool} {error : Option String} {d : Controller} :
    camera = c.active → d.captureDegraded = degraded → d.transitionFailed = c.transitionFailed →
    d.lastError = error.or c.lastError → Marks c (.setCaptureDegraded camera degraded error) d
  | keeps {action : Action} {d : Controller} : ¬ c.Hears action → ¬ c.Confirms action →
    d.captureDegraded = c.captureDegraded → d.transitionFailed = c.transitionFailed →
    d.lastError = c.lastError → Marks c action d

section

variable {c d base : Controller} {action : Action} {actions : List Action} {now : Moment}

theorem Silences.confirms (h : c.Silences action) : c.Confirms action := by
  cases action
  case command => exact ⟨h.1, h.2.1⟩
  all_goals exact h

theorem marks_self (hh : ¬ c.Hears action) (hs : ¬ c.Confirms action) : c.Marks action c :=
  .keeps hh hs rfl rfl rfl

theorem marks_poll (hh : ¬ c.Hears action) (hs : ¬ c.Confirms action)
    (hc : base.captureDegraded = c.captureDegraded)
    (hf : base.transitionFailed = c.transitionFailed) (he : base.lastError = c.lastError) :
    c.Marks action (base.poll now).2 := by
  have ⟨_, _, hp⟩ := base.poll_frame now
  rw [hp]
  exact .keeps hh hs hc hf he

theorem marks_observe (c : Controller) (sample : BrightnessSample) :
    c.Marks (.observe sample) (c.observe sample).2 := by
  obtain ⟨_, _, _, h | h⟩ := c.observe_cases sample
  · rw [h]
    exact .keeps id id rfl rfl rfl
  · rw [h]
    exact marks_poll id id rfl rfl rfl

theorem marks_command (c : Controller) (given : SwitchCommand) (now : Moment) :
    c.Marks (.command given now) (c.step (.command given now)).2 := by
  cases c.bids given
  case nothing hf =>
    have hs : ¬ c.Confirms (.command given now) := by
      rintro ⟨hm, hc⟩
      simp [SwitchCommand.validate, hm, hc] at hf
    rw [step, apply_of_error hf]
    exact marks_self id hs
  case auto hv hm =>
    rw [step, apply_of_auto hv hm]
    exact .keeps id (by simp [Confirms, hm]) rfl rfl rfl
  case stay hm hc =>
    rw [step, apply_of_manual_active hm hc]
    exact .settles hm hc rfl rfl rfl
  case leave hm hc ha =>
    rw [step, apply_of_manual hm hc ha]
    exact .keeps id (by simp [Confirms, hc, ha]) rfl rfl rfl

theorem marks_step (c : Controller) (action : Action) : c.Marks action (c.step action).2 := by
  cases action
  case observe sample    => exact c.marks_observe sample
  case poll now          => exact marks_poll id id rfl rfl rfl
  case command given now => exact c.marks_command given now
  case complete t =>
    cases hp : c.isPending t
    case false => rw [step, complete_of_not_pending hp]; exact marks_self (by simp [Hears, hp]) id
    case true  => rw [step, complete_of_pending hp]; exact .completes hp rfl rfl
  case fail t e now =>
    cases hp : c.isPending t
    case false => rw [step, fail_of_not_pending hp]; exact marks_self (by simp [Hears, hp]) id
    case true  => rw [step, fail_of_pending hp]; exact .fails hp rfl rfl rfl
  case setCaptureDegraded camera degraded error =>
    by_cases ha : camera = c.active
    case neg => rw [step, setCaptureDegraded, if_neg ha]; exact marks_self ha id
    case pos =>
      rw [step, setCaptureDegraded, if_pos ha]
      exact .reports ha rfl rfl (by cases error <;> rfl)

-- A failed switch always has its text.
def Told (c : Controller) : Prop := c.transitionFailed = true → c.lastError ≠ none

theorem Told.marks (h : c.Told) (hm : c.Marks action d) : d.Told := by
  intro hd
  cases hm with
  | settles _ _ _ hf | completes _ _ hf => cases hf.symm.trans hd
  | fails _ _ _ he => simp [he]
  | reports _ _ hf he =>
    have hc := h (hf.symm.trans hd)
    simp [he, hc]
  | keeps _ _ _ hf he => exact he ▸ h (hf.symm.trans hd)

theorem told_after (config : Config.Switcher) (actions : List Action) :
    ((new config).after actions).Told := by
  induction actions using List.reverseRecOn
  case nil => exact nofun
  case append_singleton actions action ih =>
    rw [after_concat]
    exact ih.marks (marks_step _ action)

def Silent (c : Controller) : Prop := c.captureDegraded = true ∧ c.lastError = none

theorem Told.silent_iff (h : c.Told) :
    c.status.degraded = true ∧ c.status.lastError = none ↔ c.Silent := by
  have hs (he : c.lastError = none) : c.transitionFailed = false := by
    simpa using fun hf => h hf he
  simp only [status, degraded, Silent, Bool.or_eq_true]
  constructor
  case mp  => rintro ⟨hd, he⟩; exact ⟨by simpa [hs he] using hd, he⟩
  case mpr => rintro ⟨hc, he⟩; exact ⟨.inl hc, he⟩

theorem silent_step_iff (ht : ∀ camera, action ≠ .setCaptureDegraded camera true none) :
    (c.step action).2.Silent ↔ c.Silences action ∨ c.Silent ∧ ¬ c.Hears action := by
  have hm := c.marks_step action
  generalize (c.step action).2 = d at hm
  cases hm with
  | settles hm ha hc _ he =>
    simp only [Silent, Silences, Hears, hm, ha, hc, he, true_and, and_true, not_false_eq_true]
    exact (or_iff_left_of_imp And.left).symm
  | completes hp hc => simp [Silent, Silences, Hears, hp, hc]
  | fails hp _ _ he => simp [Silent, Silences, Hears, hp, he]
  | @reports camera _ _ _ ha hc _ he =>
    have hd : ¬ d.Silent := by
      rintro ⟨hd, hn⟩
      obtain ⟨rfl, -⟩ := Option.or_eq_none_iff.mp (he.symm.trans hn)
      exact ht camera (hc.symm.trans hd ▸ rfl)
    simp [hd, Silences, Hears, ha]
  | keeps hh hs hc _ he =>
    have hs : ¬ c.Silences action := fun h => hs h.confirms
    simp [Silent, hh, hs, hc, he]

theorem unheard_concat : c.Unheard (actions ++ [action]) ↔
    c.Unheard actions ∧ ¬ (c.after actions).Hears action := by
  induction actions generalizing c
  case nil                   => simp [Unheard]
  case cons first actions ih => simp [Unheard, ih, and_assoc]

end

-- Reports that degrade the status say why, so it is degraded without a text just as long as the
-- newest thing that counts is a manual command for a camera that was active and kept failing.
theorem degraded_without_reason_iff (config : Config.Switcher) (actions : List Action)
    (ht : ∀ camera, .setCaptureDegraded camera true none ∉ actions) :
    let status := ((new config).after actions).status
    status.degraded = true ∧ status.lastError = none ↔
      ∃ before action later, actions = before ++ action :: later ∧
        ((new config).after before).Silences action ∧
        ((new config).after (before ++ [action])).Unheard later := by
  intro status
  refine (told_after config actions).silent_iff.trans ?_
  induction actions using List.reverseRecOn
  case nil => simp [Silent, new]
  case append_singleton actions last ih =>
    have hl (camera) : last ≠ .setCaptureDegraded camera true none := by
      rintro rfl
      exact ht camera (by simp)
    have hi := ih fun camera h => ht camera (List.mem_append_left _ h)
    rw [after_concat, silent_step_iff hl, hi]
    constructor
    case mp =>
      rintro (hs | ⟨⟨before, action, later, rfl, hs, hu⟩, hh⟩)
      · exact ⟨actions, last, [], rfl, hs, trivial⟩
      · refine ⟨before, action, later ++ [last], by simp, hs, unheard_concat.mpr ⟨hu, ?_⟩⟩
        simpa [← after_append] using hh
    case mpr =>
      rintro ⟨before, action, later, he, hs, hu⟩
      obtain rfl | ⟨later, newest, rfl⟩ := later.eq_nil_or_concat'
      · obtain ⟨rfl, ⟨⟩⟩ := List.append_inj' he rfl
        exact .inl hs
      · have he : actions ++ [last] = (before ++ action :: later) ++ [newest] := by simpa using he
        obtain ⟨rfl, ⟨⟩⟩ := List.append_inj' he rfl
        have ⟨hu, hh⟩ := unheard_concat.mp hu
        exact .inr ⟨⟨before, action, later, rfl, hs, hu⟩, by simpa [← after_append] using hh⟩

-- The day camera keeps failing, and is told to be what it is.
theorem degraded_without_reason_after_command :
    let failing : Action := .setCaptureDegraded .day true (some "day camera: frame read failed")
    let stay : Action := .command ⟨.manual, some .day, none⟩ ⟨0⟩
    let later : List Action := [.poll ⟨1⟩, .setCaptureDegraded .night false none]
    (∀ camera, .setCaptureDegraded camera true none ∉ failing :: stay :: later) ∧
    ((new {}).after (failing :: stay :: later)).status.degraded = true ∧
    ((new {}).after (failing :: stay :: later)).status.lastError = none := by
  intro failing stay later
  have ht : ∀ camera, .setCaptureDegraded camera true none ∉ failing :: stay :: later := by
    simp [failing, stay, later]
  refine ⟨ht, (degraded_without_reason_iff {} _ ht).mpr ⟨[failing], stay, later, rfl, ?_, ?_⟩⟩
  · exact ⟨rfl, rfl, rfl⟩
  · exact ⟨id, nofun, trivial⟩

-- So not every degraded status says why.
theorem not_always_degraded_with_reason : ¬ ∀ (config : Config.Switcher) (actions : List Action),
    (∀ camera, .setCaptureDegraded camera true none ∉ actions) →
    let status := ((new config).after actions).status
    status.degraded = true → status.lastError.isSome := by
  intro h
  have hs := h {} [.setCaptureDegraded .day true (some "day camera: frame read failed"),
    .command ⟨.manual, some .day, none⟩ ⟨0⟩] (by simp) rfl
  cases hs

end DayNight.Controller
