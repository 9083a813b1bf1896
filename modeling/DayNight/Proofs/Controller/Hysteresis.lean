import DayNight.Proofs.Brightness.Order
import DayNight.Proofs.Controller.Hold
import DayNight.Proofs.Controller.Unattended

namespace DayNight

theorem Config.thresholds_of_validate {config : Config} (h : config.validate = .ok ()) :
    config.switcher.dayToNightThreshold < config.switcher.nightToDayThreshold := by
  have hn : config.fault? = none := by
    cases hf : config.fault?
    case none       => rfl
    case some fault => simp [validate, hf] at h
  unfold fault? at hn
  by_cases hf : !config.switcher.dayToNightThreshold.isFinite ||
      !config.switcher.nightToDayThreshold.isFinite
  case pos => simp [hf] at hn
  case neg =>
    by_cases ho : config.switcher.dayToNightThreshold ≥ config.switcher.nightToDayThreshold
    case pos => simp [hf, ho] at hn
    case neg =>
      simp only [Bool.or_eq_true, Bool.not_eq_true', not_or, Bool.not_eq_false] at hf
      exact Brightness.lt_of_not_le hf.1 hf.2 ho

namespace Controller

def Action.reading? : Action → Option Reading
  | .observe sample =>
    if sample.camera = .day ∧ sample.value.isFinite then some ⟨sample.value, sample.takenAt⟩
    else none
  | _ => none

def dayReadings (actions : List Action) : List Reading := actions.filterMap Action.reading?

section

variable {config : Config.Switcher} {c : Controller} {actions : List Action} {active : Camera}

theorem dayReadings_subset {more : List Action} (h : actions <:+: more) :
    dayReadings actions ⊆ dayReadings more :=
  (h.filterMap _).subset

theorem reading?_happening (c : Controller) (action : Action) :
    (c.happening action).reading? = action.reading? := by
  cases action
  case observe sample =>
    rw [happening_observe, Action.reading?]
    split <;> rfl
  case command given now =>
    cases hv : given.validate
    case error => rw [happening_command_of_error hv]; rfl
    case ok    => rw [happening_command_of_ok hv]; rfl
  case complete t =>
    rw [happening_complete]
    split <;> rfl
  case fail t e now =>
    rw [happening_fail]
    split <;> rfl
  all_goals rfl

theorem filterMap_happenings (c : Controller) (actions : List Action) :
    (c.happenings actions).filterMap Happening.reading? = dayReadings actions := by
  induction actions generalizing c
  case nil => rfl
  case cons action actions ih =>
    simp [happenings, dayReadings, List.filterMap_cons, reading?_happening, ih]

theorem recent_suffix (before after : List Happening) :
    recent (before ++ .restart :: after) <:+ after := by
  induction after using List.reverseRecOn
  case nil => simp [recent_concat_restart]
  case append_singleton after last ih =>
    have ha : before ++ .restart :: (after ++ [last]) = before ++ .restart :: after ++ [last] := by
      simp
    cases hl : last.isRestart
    case true =>
      cases last <;> cases hl
      rw [ha, recent_concat_restart]
      exact List.nil_suffix
    case false =>
      rw [ha, recent_concat hl]
      exact (List.suffix_append_inj_of_length_eq rfl).mpr ⟨ih, rfl⟩

theorem holdRun_subset {hs : List Happening} {r : Reading} (h : r ∈ holdRun config active hs) :
    r ∈ hs.filterMap Happening.reading? := by
  have hr : readings hs <:+ hs.filterMap Happening.reading? :=
    (List.rtakeWhile_suffix ..).filterMap _
  exact ((List.rtakeWhile_suffix ..).trans hr).subset h

theorem holdRun_suffix (before after : List Happening) :
    holdRun config active (before ++ .restart :: after) <:+ after.filterMap Happening.reading? :=
  (List.rtakeWhile_suffix ..).trans ((recent_suffix before after).filterMap _)

theorem qualifies_of_mem {hs : List Happening} {r : Reading} (h : r ∈ holdRun config active hs) :
    qualifies config active r :=
  List.mem_rtakeWhile_imp h

theorem Lasted.nonempty {hold : Duration} {run : List Reading} (h : Lasted hold run) :
    ∃ r, r ∈ run := by
  have ⟨first, hf, _⟩ := h
  exact ⟨first, List.mem_of_mem_head? hf⟩

end

-- At `call` the controller asks for `t`, because of the readings of `run`: the last ones by day,
-- which have called for the switch without a break for its hold time.
structure Prompts (config : Config.Switcher) (before : List Action) (call : Action)
    (t : Transition) (run : List Reading) : Prop where
  asks   : (((new config).after before).step call).1.wanted? = some t
  run_eq : run = holdRun config t.source ((new config).happenings (before ++ [call]))
  lasted : Lasted (holdTime config t.source) run

-- A reading by day below the lower threshold and one above the upper one.
def Spans (config : Config.Switcher) (dark bright : Reading) : Prop :=
  dark.value < config.dayToNightThreshold ∧
  config.dayToNightThreshold < config.nightToDayThreshold ∧
  config.nightToDayThreshold < bright.value

theorem Spans.lt {config : Config.Switcher} {dark bright : Reading}
    (h : Spans config dark bright) : dark.value < bright.value :=
  Brightness.trans (Brightness.trans h.1 h.2.1) h.2.2

section

variable {config : Config.Switcher} {c : Controller} {actions before : List Action}
  {call action : Action} {t : Transition} {run : List Reading}

namespace Prompts

theorem mem_readings (h : Prompts config before call t run) {r : Reading} (hr : r ∈ run) :
    r ∈ dayReadings (before ++ [call]) := by
  rw [← (new config).filterMap_happenings]
  exact holdRun_subset (h.run_eq ▸ hr)

theorem qualifies (h : Prompts config before call t run) {r : Reading} (hr : r ∈ run) :
    Controller.qualifies config t.source r :=
  qualifies_of_mem (h.run_eq ▸ hr)

theorem outside_gap (h : Prompts config before call t run) : ∃ r ∈ run,
    ¬ (config.dayToNightThreshold ≤ r.value ∧ r.value ≤ config.nightToDayThreshold) := by
  have ⟨r, hr⟩ := h.lasted.nonempty
  have hq := h.qualifies hr
  refine ⟨r, hr, fun ⟨hl, hh⟩ => ?_⟩
  cases ht : t.source
  all_goals simp only [ht, Controller.qualifies, decide_eq_true_eq] at hq
  case day   => exact Brightness.not_lt_of_le hl hq
  case night => exact Brightness.not_lt_of_le hh hq

-- A completed switch leaves no readings for the next request.
theorem suffix_of_completed {earlier : Transition} {first middle : List Action}
    (h : Prompts config (first ++ .complete earlier :: middle) call t run)
    (hc : ((new config).after first).isPending earlier) :
    run <:+ dayReadings (middle ++ [call]) := by
  have hh : ((new config).after first).happening (.complete earlier) = .restart := by
    rw [happening_complete, if_pos hc]
  rw [h.run_eq, List.append_assoc, happenings_append, List.cons_append, happenings, hh,
    ← filterMap_happenings]
  exact holdRun_suffix ..

end Prompts

theorem isQuery_of_wanted (ho : ¬ action.IsOrder) (h : (c.step action).1.wanted? = some t) :
    action.isQuery := by
  cases action
  case observe => rfl
  case poll    => rfl
  case command given now =>
    cases hv : given.validate
    case error => simp [step, apply_of_error hv, Answer.wanted?] at h
    case ok    => exact absurd hv ho
  all_goals cases h

theorem prompts_of_wanted (hm : config.initialMode = .auto)
    (ho : ∀ action ∈ before ++ [call], ¬ action.IsOrder)
    (h : (((new config).after before).step call).1.wanted? = some t) :
    ∃ run, Prompts config before call t run := by
  have hq : call.isQuery := isQuery_of_wanted (ho call (by simp)) h
  have ha : ((new config).after before).mode = .auto :=
    (mode_of_no_order fun a hb => ho a (by simp [hb])).trans hm
  have hd : Tracks config ((new config).happenings before) ((new config).after before) := .run ..
  obtain ⟨-, hn⟩ | ⟨now, d, -, hw, ht, hdm, -, -, -⟩ := hd.query ha hq
  · cases hn.symm.trans h
  · rw [← happenings_concat] at ht
    have hp : (d.poll now).1 = some t := hw.symm.trans h
    have hs : t.source = d.active := by rw [poll_wants_other hdm hp]
    have ⟨_, _, hl⟩ := (ht.poll_wants_iff hdm now).mp (by simp [hp])
    exact ⟨_, h, rfl, hs ▸ hl⟩

theorem exists_call_of_asked (h : t ∈ c.asked actions) : ∃ before call later,
    actions = before ++ call :: later ∧ ((c.after before).step call).1.wanted? = some t := by
  induction actions using List.reverseRecOn
  case nil => cases h
  case append_singleton actions last ih =>
    rw [asked_concat, List.mem_append] at h
    obtain h | h := h
    · have ⟨before, call, later, ha, hw⟩ := ih h
      exact ⟨before, call, later ++ [last], by simp [ha], hw⟩
    · exact ⟨actions, last, [], rfl, Option.mem_toList.mp h⟩

end

-- Two completed switches, with no other one between them.
structure Consecutive (c : Controller) (first : List Action) (t : Transition)
    (middle : List Action) (u : Transition) : Prop where
  earlier : ((c.after first).complete t).1 = true
  later   : ((c.after (first ++ .complete t :: middle)).complete u).1 = true
  between : (c.after (first ++ [.complete t])).accepted middle = 0

-- Both switches were asked for because of readings, those for `u` all from after the completion of
-- `t`, and the readings for the one are below the gap and those for the other above it.
def Crosses (config : Config.Switcher) (first : List Action) (t : Transition)
    (middle : List Action) (u : Transition) : Prop :=
  ∃ before call rest run, first = before ++ call :: rest ∧ Prompts config before call t run ∧
  ∃ before' call' rest' run', middle = before' ++ call' :: rest' ∧
    Prompts config (first ++ .complete t :: before') call' u run' ∧
    run' <:+ dayReadings (before' ++ [call']) ∧
    ∀ r ∈ run, ∀ r' ∈ run',
      match u.target with
      | .night => Spans config r' r
      | .day   => Spans config r r'

section

variable {config : Config.Switcher} {c : Controller} {actions first middle : List Action}
  {action : Action} {t u : Transition}

theorem accepts_iff : (c.step action).1 = .accepts true ↔
    ∃ t, action = .complete t ∧ (c.complete t).1 = true := by
  cases action
  case command given now => simp [c.command_not_accepts given now]
  all_goals simp [step]

theorem exists_first_accepted (h : c.accepted actions ≠ 0) : ∃ first t rest,
    actions = first ++ .complete t :: rest ∧ c.accepted first = 0 ∧
    ((c.after first).complete t).1 = true := by
  induction actions using List.reverseRecOn
  case nil => exact absurd rfl h
  case append_singleton actions last ih =>
    by_cases ha : c.accepted actions = 0
    case neg =>
      have ⟨first, t, rest, he, hf⟩ := ih ha
      exact ⟨first, t, rest ++ [last], by simp [he], hf⟩
    case pos =>
      rw [accepted_concat, ha, Nat.zero_add, ne_eq, ite_eq_right_iff, not_forall] at h
      have ⟨t, hl, ht⟩ := accepts_iff.mp h.1
      exact ⟨actions, t, [], by rw [hl], ha, ht⟩

theorem exists_consecutive (h : 2 ≤ c.accepted actions) : ∃ first t middle u,
    first ++ .complete t :: middle ++ [.complete u] <+: actions ∧
    c.Consecutive first t middle u := by
  obtain ⟨first, t, rest, rfl, hf, ht⟩ := exists_first_accepted (by omega : c.accepted actions ≠ 0)
  have hr : (c.after (first ++ [.complete t])).accepted rest ≠ 0 := by
    have hs : first ++ .complete t :: rest = first ++ [.complete t] ++ rest := by simp
    rw [hs, accepted_append, accepted_concat, hf] at h
    split at h <;> omega
  obtain ⟨middle, u, last, rfl, hm, hu⟩ := exists_first_accepted hr
  refine ⟨first, t, middle, u, ⟨last, by simp⟩, ht, ?_, hm⟩
  rwa [← after_append, List.append_assoc, List.singleton_append] at hu

-- What is completed is the switch that was asked for last.
theorem pending_of_completed (hr : (new config).ReportsAsked (actions ++ [.complete t]))
    (h : (((new config).after actions).complete t).1 = true) :
    ((new config).after actions).pending = some t := by
  have ⟨ha, ho⟩ := reportsAsked_concat.mp hr
  exact (Accounts.run ha).pending_eq (ho t rfl) (complete_fst .. ▸ h)

theorem ReportsAsked.completed
    (hr : c.ReportsAsked (first ++ .complete t :: middle ++ [.complete u])) :
    c.ReportsAsked (first ++ [.complete t]) :=
  hr.of_prefix ⟨middle ++ [.complete u], by simp⟩

namespace Consecutive

variable (hc : (new config).Consecutive first t middle u)
  (hr : (new config).ReportsAsked (first ++ .complete t :: middle ++ [.complete u]))

include hc hr

theorem opposite : t.target = t.source.other ∧ u.source = t.target ∧ u.target = t.source := by
  have hm : first ++ .complete t :: middle = first ++ [.complete t] ++ middle := by simp
  have hb := Accounts.run (reportsAsked_concat.mp hr.completed).1
  have ha := Accounts.run (reportsAsked_concat.mp hr).1
  obtain ⟨_, _, _, hts, htt⟩ :=
    hb.pending t (pending_of_completed hr.completed hc.earlier)
  obtain ⟨_, _, _, hus, hut⟩ := ha.pending u (pending_of_completed hr hc.later)
  -- From the state before `t` to the one before `u` exactly one switch is completed.
  have hn : (new config).accepted (first ++ .complete t :: middle) =
      (new config).accepted first + 1 := by
    rw [hm, accepted_append, accepted_concat, hc.between,
      if_pos (accepts_iff.mpr ⟨t, rfl, hc.earlier⟩)]
  have ho : ((new config).after (first ++ .complete t :: middle)).active =
      ((new config).after first).active.other := by
    rw [ha.active, hb.active, hn, Function.iterate_succ_apply']
  exact ⟨by rw [htt, hts], by rw [hus, htt, ho], by rw [hut, hts, ho, Camera.other_other]⟩

-- The second switch is asked for after the first one is completed, as nothing is pending then.
theorem exists_call : ∃ before call rest, middle = before ++ call :: rest ∧
    (((new config).after (first ++ .complete t :: before)).step call).1.wanted? = some u := by
  have hm : first ++ .complete t :: middle = first ++ [.complete t] ++ middle := by simp
  have hu : u ∈ (new config).asked (first ++ .complete t :: middle) :=
    (reportsAsked_concat.mp hr).2 u rfl
  rw [hm, asked_append, List.mem_append] at hu
  obtain hu | hu := hu
  · have hi := (Accounts.run hr.completed).issued hu
    have hp : ¬ ((new config).after (first ++ [.complete t])).isPending u := by
      rw [after_concat, step, complete_of_pending (complete_fst .. ▸ hc.earlier)]
      simp [isPending]
    have hs := not_settled hi hp (middle ++ [.complete u]) u
    rw [settled_concat, ← after_append, ← hm] at hs
    have hl : ((new config).after (first ++ .complete t :: middle)).settles? (.complete u) =
        some u := settles?_eq_some.mpr ⟨rfl, complete_fst .. ▸ hc.later⟩
    exact absurd rfl (hs (by simp [hl]))
  · obtain ⟨before, call, rest, rfl, hw⟩ := exists_call_of_asked hu
    refine ⟨before, call, rest, rfl, ?_⟩
    rwa [← after_append, List.append_assoc, List.singleton_append] at hw

theorem crosses (hm : config.initialMode = .auto)
    (ho : ∀ action ∈ first ++ .complete t :: middle, ¬ action.IsOrder)
    (hg : config.dayToNightThreshold < config.nightToDayThreshold) :
    Crosses config first t middle u := by
  have ht : t ∈ (new config).asked first := (reportsAsked_concat.mp hr.completed).2 t rfl
  obtain ⟨before, call, rest, rfl, hw⟩ := exists_call_of_asked ht
  obtain ⟨before', call', rest', rfl, hw'⟩ := hc.exists_call hr
  have ⟨run, hp⟩ := prompts_of_wanted hm (fun a h => ho a (by simp at h ⊢; tauto)) hw
  have ⟨run', hp'⟩ := prompts_of_wanted hm (fun a h => ho a (by simp at h ⊢; tauto)) hw'
  refine ⟨before, call, rest, run, rfl, hp, before', call', rest', run', rfl, hp',
    hp'.suffix_of_completed (complete_fst .. ▸ hc.earlier), fun r h r' h' => ?_⟩
  have hq := hp.qualifies h
  have hq' := hp'.qualifies h'
  have ⟨ht, hs, hu⟩ := hc.opposite hr
  rw [hs, ht] at hq'
  rw [hu]
  cases hts : t.source
  all_goals simp only [hts, qualifies, Camera.other, decide_eq_true_eq] at hq hq'
  case day   => exact ⟨hq, hg, hq'⟩
  case night => exact ⟨hq', hg, hq⟩

end Consecutive

end

theorem Crosses.exists_spans {config : Config.Switcher} {first middle : List Action}
    {t u : Transition} (h : Crosses config first t middle u) :
    ∃ dark ∈ dayReadings (first ++ .complete t :: middle),
    ∃ bright ∈ dayReadings (first ++ .complete t :: middle), Spans config dark bright := by
  obtain ⟨before, call, rest, run, hf, hp, before', call', rest', run', hl, hp', hs, hg⟩ := h
  have hi : before ++ [call] <:+: first ++ .complete t :: middle :=
    ⟨[], rest ++ .complete t :: middle, by simp [hf]⟩
  have hi' : before' ++ [call'] <:+: first ++ .complete t :: middle :=
    ⟨first ++ [.complete t], rest', by simp [hl]⟩
  have ⟨r, hr⟩ := hp.lasted.nonempty
  have ⟨r', hr'⟩ := hp'.lasted.nonempty
  have hm := dayReadings_subset hi (hp.mem_readings hr)
  have hm' := dayReadings_subset hi' (hs.subset hr')
  specialize hg r hr r' hr'
  cases hu : u.target
  all_goals rw [hu] at hg
  case day   => exact ⟨r, hm, r', hm', hg⟩
  case night => exact ⟨r', hm', r, hm, hg⟩

-- That a run goes to and fro needs readings on both sides of the gap, and that it switches at all
-- needs one outside of it.
theorem hysteresis (config : Config) (actions : List Action) (hv : config.validate = .ok ())
    (hm : config.switcher.initialMode = .auto) (ho : ∀ action ∈ actions, ¬ action.IsOrder)
    (hr : (new config.switcher).ReportsAsked actions) :
    let s := config.switcher
    let c := new s
    (∀ first t middle u, first ++ .complete t :: middle ++ [.complete u] <+: actions →
      c.Consecutive first t middle u →
      u.source = t.target ∧ u.target = t.source ∧ Crosses s first t middle u) ∧
    ((∀ r ∈ dayReadings actions, ∀ r' ∈ dayReadings actions, r.value == r'.value) →
      c.accepted actions ≤ 1) ∧
    ((∀ r ∈ dayReadings actions,
        s.dayToNightThreshold ≤ r.value ∧ r.value ≤ s.nightToDayThreshold) →
      c.asked actions = []) := by
  intro s c
  have hg := Config.thresholds_of_validate hv
  have hx {first middle : List Action} {t u : Transition}
      (hp : first ++ .complete t :: middle ++ [.complete u] <+: actions)
      (hc : c.Consecutive first t middle u) : Crosses s first t middle u :=
    hc.crosses (hr.of_prefix hp) hm (fun a h => ho a (hp.subset (List.mem_append_left _ h))) hg
  refine ⟨fun first t middle u hp hc => ?_, fun hs => ?_, fun hs => ?_⟩
  · have ⟨_, ho⟩ := hc.opposite (hr.of_prefix hp)
    exact ⟨ho.1, ho.2, hx hp hc⟩
  · by_contra hn
    obtain ⟨first, t, middle, u, hp, hc⟩ := exists_consecutive (Nat.lt_of_not_le hn)
    obtain ⟨dark, hd, bright, hb, hl⟩ := (hx hp hc).exists_spans
    have hi := dayReadings_subset ((List.prefix_append ..).trans hp).isInfix
    exact Brightness.not_beq_of_lt hl.lt (hs dark (hi hd) bright (hi hb))
  · by_contra hn
    obtain ⟨t, ht⟩ := List.exists_mem_of_ne_nil _ hn
    obtain ⟨before, call, rest, he, hw⟩ := exists_call_of_asked ht
    have hp : before ++ [call] <+: actions := ⟨rest, by simp [he]⟩
    obtain ⟨run, hr⟩ := prompts_of_wanted hm (fun a h => ho a (hp.subset h)) hw
    obtain ⟨r, hm, hn⟩ := hr.outside_gap
    exact hn (hs r (dayReadings_subset hp.isInfix (hr.mem_readings hm)))

-- A night and the next morning.
theorem hysteresis_until_morning :
    let config : Config := {}
    let dusk : List Action := [.observe ⟨.day, 35, ⟨0⟩⟩, .observe ⟨.day, 30, ⟨10000000000⟩⟩]
    let dawn : List Action :=
      [.observe ⟨.day, 60, ⟨20000000000⟩⟩, .observe ⟨.day, 80, ⟨30000000000⟩⟩,
        .observe ⟨.day, 90, ⟨40000000000⟩⟩]
    let out : Transition := ⟨1, .day, .night, "brightness_low"⟩
    let back : Transition := ⟨2, .night, .day, "brightness_high"⟩
    let actions := dusk ++ .complete out :: dawn ++ [.complete back]
    config.validate = .ok () ∧ config.switcher.initialMode = .auto ∧
    (∀ action ∈ actions, ¬ action.IsOrder) ∧ (new config.switcher).ReportsAsked actions ∧
    (new config.switcher).Consecutive dusk out dawn back ∧
    Crosses config.switcher dusk out dawn back := by
  intro config dusk dawn out back actions
  have hn : config.fault?.isNone := by decide
  have hv : config.validate = .ok () := by
    rw [Config.validate, Option.isNone_iff_eq_none.mp hn]
  have ho : ∀ action ∈ actions, ¬ action.IsOrder := by simp [actions, dusk, dawn, Action.IsOrder]
  have hr : (new config.switcher).ReportsAsked actions := by decide
  have hc : (new config.switcher).Consecutive dusk out dawn back :=
    ⟨by decide, by decide, by decide⟩
  obtain ⟨hx, _⟩ := hysteresis config actions hv rfl ho hr
  exact ⟨hv, rfl, ho, hr, hc, (hx dusk out dawn back (List.prefix_refl _) hc).2.2⟩

end Controller

end DayNight
