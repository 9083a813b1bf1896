import DayNight.Proofs.Controller.Hold
import DayNight.Proofs.Controller.Unattended
import Mathlib.Data.List.Pairwise

namespace DayNight

namespace Moment

variable {a b c : Moment} {gap length : Duration}

theorem le_of_not_lt (h : ¬ a < b) : b ≤ a := Nat.le_of_not_lt h

theorem trans (hab : a ≤ b) (hbc : b ≤ c) : a ≤ c := Nat.le_trans hab hbc

theorem after_mono (h : a ≤ b) (gap : Duration) : a.after gap ≤ b.after gap :=
  Nat.add_le_add_right h gap.nanos

-- As many gaps as lie between the moments fit between the bounds.
theorem gaps_le {times : List Moment} (hs : times.Pairwise (·.after gap ≤ ·))
    (hw : ∀ time ∈ times, a ≤ time ∧ time ≤ b) (hn : times ≠ []) :
    a.nanos + (times.length - 1) * gap.nanos ≤ b.nanos := by
  induction times generalizing a
  case nil => exact absurd rfl hn
  case cons time times ih =>
    have ⟨ha, hb⟩ := hw time List.mem_cons_self
    have ⟨hg, hs⟩ := List.pairwise_cons.mp hs
    cases times
    case nil =>
      have hb : a.nanos ≤ b.nanos := trans ha hb
      simpa using hb
    case cons next times =>
      have hr := ih (a := time.after gap) hs
        (fun later hl => ⟨hg later hl, (hw later (List.mem_cons_of_mem _ hl)).2⟩) nofun
      have ha : a.nanos ≤ time.nanos := ha
      simp only [after, List.length_cons, Nat.add_sub_cancel, Nat.add_mul, Nat.one_mul] at hr ⊢
      omega

theorem length_le_of_spaced {times : List Moment} (hg : 0 < gap.nanos)
    (hs : times.Pairwise (·.after gap ≤ ·))
    (hw : ∀ time ∈ times, a ≤ time ∧ time ≤ a.after length) :
    times.length ≤ 1 + length.nanos / gap.nanos := by
  by_cases hn : times = []
  case pos => simp [hn]
  case neg =>
    have hl := gaps_le hs hw hn
    have hd : times.length - 1 ≤ length.nanos / gap.nanos := by
      rw [Nat.le_div_iff_mul_le hg]
      exact Nat.le_of_add_le_add_left hl
    omega

end Moment

namespace Controller

-- The times that the actions tell.
def times (actions : List Action) : List Moment := actions.filterMap Action.time?

-- The times at which a run asks for switches.
def askedAt (c : Controller) : List Action → List Moment
  | [] => []
  | action :: actions =>
    ((c.step action).1.wanted?.bind fun _ => action.time?).toList ++
      (c.step action).2.askedAt actions

section

variable {c : Controller} {action : Action} {actions : List Action} {start limit now : Moment}

theorem accepted_cons : c.accepted (action :: actions) =
    (c.step action).2.accepted actions + if (c.step action).1 = .accepts true then 1 else 0 := by
  simp [accepted, run, List.count_cons]

theorem askedAt_of_none (h : (c.step action).1.wanted? = none) :
    c.askedAt (action :: actions) = (c.step action).2.askedAt actions := by
  simp [askedAt, h]

theorem askedAt_of_some {t : Transition} (h : (c.step action).1.wanted? = some t)
    (ht : action.time? = some now) :
    c.askedAt (action :: actions) = now :: (c.step action).2.askedAt actions := by
  simp [askedAt, h, ht]

theorem times_cons (h : action.time? = some now) :
    times (action :: actions) = now :: times actions := by
  simp [times, h]

theorem times_sublist : (times actions).Sublist (times (action :: actions)) :=
  (List.sublist_cons_self action actions).filterMap _

theorem mem_times_of_askedAt (h : now ∈ c.askedAt actions) : now ∈ times actions := by
  induction actions generalizing c
  case nil => cases h
  case cons action actions ih =>
    obtain h | h := List.mem_append.mp h
    · obtain ⟨_, _, ht⟩ := Option.bind_eq_some_iff.mp (Option.mem_toList.mp h)
      rw [times_cons ht]
      exact List.mem_cons_self
    · exact times_sublist.subset (ih h)

-- While the controller waits after a failure, nothing is pending that could be completed.
theorem askedAt_of_waiting (ho : ∀ action ∈ actions, ¬ action.IsOrder)
    (hs : (times actions).Pairwise (· ≤ ·)) (hp : c.pending = none) (hr : c.retryAt = some limit) :
    (∀ time ∈ c.askedAt actions, limit ≤ time) ∧
    (c.askedAt actions = [] → (c.after actions).active = c.active) := by
  induction actions generalizing c
  case nil => exact ⟨nofun, fun _ => rfl⟩
  case cons action actions ih =>
    have ⟨ha, ho⟩ := List.forall_mem_cons.mp ho
    have he := effect_of_step (c := c) ha
    have hi (t : Transition) : ¬ c.isPending t := by simp [isPending, hp]
    rw [after_cons]
    generalize hw : (c.step action).1.wanted? = wanted at he
    generalize hd : (c.step action).2 = d at he
    cases he with
    | asks _ ht hc =>
      rw [askedAt_of_some hw ht]
      rw [times_cons ht, List.pairwise_cons] at hs
      have hl := Moment.le_of_not_lt ((waits_eq_false.mp hc).2 limit hr)
      refine ⟨List.forall_mem_cons.mpr ⟨hl, fun time h => ?_⟩, fun h => ?_⟩
      · exact Moment.trans hl (hs.1 time (mem_times_of_askedAt h))
      · exact absurd h (List.cons_ne_nil _ _)
    | completes _ hc => exact absurd hc (hi _)
    | fails _ hc     => exact absurd hc (hi _)
    | idles _ ha hr' hp' =>
      rw [askedAt_of_none hw, hd]
      have hq := ih ho (hs.sublist times_sublist) (hp'.trans hp) (hr'.trans hr)
      exact ⟨hq.1, fun h => (hq.2 h).trans ha⟩

-- What is pending has to fail before the controller asks again.
theorem askedAt_of_pending {t : Transition} (ho : ∀ action ∈ actions, ¬ action.IsOrder)
    (hs : (times actions).Pairwise (· ≤ ·)) (hc : c.accepted actions = 0)
    (hp : c.pending = some t) (hl : ∀ time ∈ times actions, start ≤ time) :
    ∀ time ∈ c.askedAt actions, start.after c.config.probeInterval ≤ time := by
  induction actions generalizing c
  case nil => exact nofun
  case cons action actions ih =>
    have ⟨ha, ho'⟩ := List.forall_mem_cons.mp ho
    have he := effect_of_step (c := c) ha
    rw [accepted_cons, Nat.add_eq_zero_iff] at hc
    have hl' : ∀ time ∈ times actions, start ≤ time := fun time h =>
      hl time (times_sublist.subset h)
    have hs' := hs.sublist times_sublist
    generalize hw : (c.step action).1.wanted? = wanted at he
    generalize hd : (c.step action).2 = d at he hc
    cases he with
    | asks _ _ hn => exact absurd (hp.symm.trans (waits_eq_false.mp hn).1) nofun
    | completes _ hi =>
      have hr := hc.2
      simp [step, complete_of_pending hi] at hr
    | fails _ hi _ hr hn =>
      rw [askedAt_of_none hw, hd]
      have hq := (askedAt_of_waiting ho' hs' hn hr).1
      have ht := Moment.after_mono (hl _ List.mem_cons_self) c.config.probeInterval
      exact fun time h => Moment.trans ht (hq time h)
    | idles hk _ _ hn =>
      rw [askedAt_of_none hw, hd, ← hk.config]
      exact ih ho' hs' hc.1 (hn.trans hp) hl'

theorem askedAt_spaced (ho : ∀ action ∈ actions, ¬ action.IsOrder)
    (hs : (times actions).Pairwise (· ≤ ·)) (hc : c.accepted actions = 0) :
    (c.askedAt actions).Pairwise (·.after c.config.probeInterval ≤ ·) := by
  induction actions generalizing c
  case nil => exact .nil
  case cons action actions ih =>
    have ⟨ha, ho⟩ := List.forall_mem_cons.mp ho
    have he := effect_of_step (c := c) ha
    rw [accepted_cons, Nat.add_eq_zero_iff] at hc
    have hr := ih ho (hs.sublist times_sublist) hc.1
    rw [he.undisturbed.config] at hr
    generalize hw : (c.step action).1.wanted? = wanted at he
    cases he with
    | asks hk ht _ _ _ hp =>
      rw [askedAt_of_some hw ht]
      rw [times_cons ht, List.pairwise_cons] at hs
      have hq := askedAt_of_pending ho hs.2 hc.1 hp hs.1
      exact .cons (hk.config ▸ hq) hr
    | completes | fails | idles => rwa [askedAt_of_none hw]

end

theorem retries_are_bounded (config : Config.Switcher) (actions : List Action)
    (hp : Duration.zero < config.probeInterval) (hs : (times actions).Pairwise (· ≤ ·)) :
    (∀ before t e now later, before ++ .fail t e now :: later <+: actions →
      ((new config).after before).isPending t → (∀ action ∈ later, ¬ action.IsOrder) →
      let c := (new config).after (before ++ [.fail t e now])
      (∀ time ∈ c.askedAt later, now.after config.probeInterval ≤ time) ∧
      (c.askedAt later = [] → (c.after later).active = ((new config).after before).active)) ∧
    (∀ before stretch, before ++ stretch <+: actions →
      (∀ action ∈ stretch, ¬ action.IsOrder) → ((new config).after before).accepted stretch = 0 →
      ∀ (opening : Moment) (length : Duration),
        (((new config).after before).askedAt stretch).countP
          (fun time => opening ≤ time ∧ time ≤ opening.after length) ≤
            1 + length.nanos / config.probeInterval.nanos) := by
  have hc (before : List Action) : ((new config).after before).config = config :=
    (Tracks.run config before).config_eq
  constructor
  · intro before t e now later hl hi ho c
    have hd : c = ((new config).after before).fail t e now := after_concat ..
    have hr : c.retryAt = some (now.after config.probeInterval) := by
      rw [hd, fail_of_pending hi, hc]
    have ha : c.active = ((new config).after before).active := by rw [hd, fail_active]
    have hn : c.pending = none := by rw [hd, fail_of_pending hi]
    have hl : later <:+: actions :=
      ((List.suffix_cons ..).trans (List.suffix_append ..)).isInfix.trans hl.isInfix
    exact ha ▸ askedAt_of_waiting ho (hs.sublist (hl.sublist.filterMap _)) hn hr
  · intro before stretch hl ho ha opening length
    have hl : stretch <:+: actions := (List.suffix_append ..).isInfix.trans hl.isInfix
    have hq := askedAt_spaced ho (hs.sublist (hl.sublist.filterMap _)) ha
    rw [hc] at hq
    rw [List.countP_eq_length_filter]
    refine Moment.length_le_of_spaced (a := opening) hp (hq.sublist List.filter_sublist) ?_
    exact fun time ht => of_decide_eq_true (List.mem_filter.mp ht).2

-- The night camera is busy twice, two and a half seconds apart, and polled all the time.
theorem retries_are_bounded_while_busy :
    let t : Transition := ⟨1, .day, .night, "brightness_low"⟩
    let dusk : List Action := [.observe ⟨.day, 35, ⟨0⟩⟩, .observe ⟨.day, 30, ⟨10000000000⟩⟩]
    let later : List Action := [.observe ⟨.day, 30, ⟨11000000000⟩⟩, .poll ⟨12000000000⟩,
      .fail { t with id := 2 } (.reading "busy") ⟨12500000000⟩, .poll ⟨13000000000⟩,
      .observe ⟨.day, 30, ⟨14500000000⟩⟩]
    let actions := dusk ++ .fail t (.reading "busy") ⟨10000000000⟩ :: later
    Duration.zero < Config.Switcher.probeInterval {} ∧ (times actions).Pairwise (· ≤ ·) ∧
    ((new {}).after dusk).isPending t ∧ (∀ action ∈ later, ¬ action.IsOrder) ∧
    (∀ action ∈ actions, ¬ action.IsOrder) ∧ (new {}).accepted actions = 0 ∧
    (new {}).askedAt actions = [⟨10000000000⟩, ⟨12000000000⟩, ⟨14500000000⟩] ∧
    (∀ time ∈ ((new {}).after (dusk ++ [.fail t (.reading "busy") ⟨10000000000⟩])).askedAt later,
      (⟨10000000000⟩ : Moment).after (Config.Switcher.probeInterval {}) ≤ time) ∧
    ((new {}).askedAt actions).countP
      (fun time => (⟨10000000000⟩ : Moment) ≤ time ∧
        time ≤ (⟨10000000000⟩ : Moment).after ⟨3000000000⟩) ≤ 2 := by
  intro t dusk later actions
  have hp : Duration.zero < Config.Switcher.probeInterval {} := by decide
  have hs : (times actions).Pairwise (· ≤ ·) := by decide
  have hi : ((new {}).after dusk).isPending t := by decide
  have hl : ∀ action ∈ later, ¬ action.IsOrder := by simp [later, Action.IsOrder]
  have ho : ∀ action ∈ actions, ¬ action.IsOrder := by
    simp [actions, dusk, later, Action.IsOrder]
  have ha : (new {}).accepted actions = 0 := by decide
  obtain ⟨hf, hc⟩ := retries_are_bounded {} actions hp hs
  exact ⟨hp, hs, hi, hl, ho, ha, by decide, (hf dusk t _ _ later (List.prefix_refl _) hi hl).1,
    hc [] actions (List.prefix_refl _) ho ha ⟨10000000000⟩ ⟨3000000000⟩⟩

end Controller

end DayNight
