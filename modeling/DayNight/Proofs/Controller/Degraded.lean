import DayNight.Proofs.Controller.Reasons

namespace DayNight.Controller

-- In the course of the actions something has happened, and none of the later ones has undone it.
def Stands (happens undoes : Controller → Action → Prop) (c : Controller) (actions : List Action) :
    Prop :=
  ∃ before action later, actions = before ++ action :: later ∧ happens (c.after before) action ∧
    ∀ first next rest, later = first ++ next :: rest →
      ¬ undoes (c.after (before ++ action :: first)) next

section

variable {happens undoes : Controller → Action → Prop} {c : Controller} {actions : List Action}
         {last : Action}

theorem not_stands_nil : ¬ c.Stands happens undoes [] := by
  rintro ⟨before, action, later, he, -⟩
  simp at he

theorem Stands.of_last (h : happens (c.after actions) last) :
    c.Stands happens undoes (actions ++ [last]) :=
  ⟨actions, last, [], rfl, h, fun first next rest he => by simp at he⟩

theorem Stands.concat (h : c.Stands happens undoes actions) (hu : ¬ undoes (c.after actions) last) :
    c.Stands happens undoes (actions ++ [last]) := by
  obtain ⟨before, action, later, rfl, hh, hl⟩ := h
  refine ⟨before, action, later ++ [last], by simp, hh, fun first next rest he => ?_⟩
  obtain rfl | ⟨rest, newest, rfl⟩ := rest.eq_nil_or_concat'
  · obtain ⟨rfl, ⟨⟩⟩ := List.append_inj' he rfl
    exact hu
  · have he : later ++ [last] = (first ++ next :: rest) ++ [newest] := by simpa using he
    obtain ⟨rfl, ⟨⟩⟩ := List.append_inj' he rfl
    exact hl first next rest rfl

theorem stands_concat : c.Stands happens undoes (actions ++ [last]) ↔
    happens (c.after actions) last ∨
      c.Stands happens undoes actions ∧ ¬ undoes (c.after actions) last := by
  constructor
  case mpr => rintro (h | ⟨h, hu⟩); exacts [.of_last h, h.concat hu]
  case mp =>
    rintro ⟨before, action, later, he, hh, hl⟩
    obtain rfl | ⟨later, newest, rfl⟩ := later.eq_nil_or_concat'
    · obtain ⟨rfl, ⟨⟩⟩ := List.append_inj' he rfl
      exact .inl hh
    · have he : actions ++ [last] = (before ++ action :: later) ++ [newest] := by simpa using he
      obtain ⟨rfl, ⟨⟩⟩ := List.append_inj' he rfl
      refine .inr ⟨⟨before, action, later, rfl, hh, fun first next rest hf => ?_⟩, ?_⟩
      · exact hl first next (rest ++ [last]) (by simp [hf])
      · exact hl later last [] rfl

end

-- A switch is completed, and that is accepted.
def Completes (c : Controller) (action : Action) : Prop := (c.step action).1 = .accepts true

-- A switch has failed that was still pending.
def Fails (c : Controller) : Action → Prop
  | .fail t _ _ => c.isPending t
  | _           => False

def Reports (camera : Camera) (degraded : Bool) : Action → Prop
  | .setCaptureDegraded reporter state _ => reporter = camera ∧ state = degraded
  | _                                    => False

-- The camera has reported that it keeps failing, and has not taken that back since. A completed
-- switch ends this too, for then the camera is not the active one any more.
def KeepsFailing (c : Controller) (camera : Camera) : List Action → Prop :=
  c.Stands (fun _ => Reports camera true)
    fun d action => d.Completes action ∨ Reports camera false action

-- A switch has failed, and since then none has been completed and nobody has been content with the
-- camera that was active.
def SwitchFailed (c : Controller) : List Action → Prop :=
  c.Stands Fails fun d action => d.Completes action ∨ d.Confirms action

section

variable {c : Controller} {action : Action}

theorem completes_iff : c.Completes action ↔ ∃ t, action = .complete t ∧ c.isPending t := by
  cases action
  case command given now => simpa [Completes] using c.command_not_accepts given now
  case complete t        => simp [Completes, step, complete_fst]
  all_goals simp [Completes, step]

-- Each of them is something that counts.
theorem Completes.hears (h : c.Completes action) : c.Hears action := by
  obtain ⟨t, rfl, hp⟩ := completes_iff.mp h
  exact hp

theorem Fails.hears (h : c.Fails action) : c.Hears action := by
  cases action
  case fail => exact h
  all_goals exact h.elim

theorem Reports.hears {degraded : Bool} (h : Reports c.active degraded action) :
    c.Hears action := by
  cases action
  case setCaptureDegraded => exact h.1
  all_goals exact h.elim

theorem Completes.not_reports {camera : Camera} {degraded : Bool} (h : c.Completes action) :
    ¬ Reports camera degraded action := by
  obtain ⟨t, rfl, -⟩ := completes_iff.mp h
  exact id

theorem step_active (h : ¬ c.Completes action) : (c.step action).2.active = c.active := by
  cases action
  case observe sample => exact (asks_observe sample).active
  case poll now       =>
    have ha : c.Asks (c.poll now) := asks_poll rfl rfl (.inl rfl)
    exact ha.active
  case command given now => exact (c.asks_command given now).active
  case complete t        =>
    have hp : c.isPending t = false := by simpa [completes_iff] using h
    rw [step, complete_of_not_pending hp]
  case fail t e now                         => exact fail_active t e now
  case setCaptureDegraded camera state error => exact setCaptureDegraded_active camera state error

theorem step_captureDegraded : (c.step action).2.captureDegraded = true ↔
    Reports c.active true action ∨
      c.captureDegraded = true ∧ ¬ (c.Completes action ∨ Reports c.active false action) := by
  have hm := c.marks_step action
  generalize (c.step action).2 = d at hm
  cases hm with
  | settles _ _ hc  => simp [completes_iff, Reports, hc]
  | completes hp hc => simp [completes_iff, Reports, hp, hc]
  | fails _ hc      => simp [completes_iff, Reports, hc]
  | reports ha hc   => simp [completes_iff, Reports, ha, hc]
  | keeps hh _ hc   =>
    have hr (degraded : Bool) : ¬ Reports c.active degraded action := fun h => hh h.hears
    have hs : ¬ c.Completes action := fun h => hh h.hears
    simp [hr, hs, hc]

theorem step_transitionFailed : (c.step action).2.transitionFailed = true ↔
    c.Fails action ∨ c.transitionFailed = true ∧ ¬ (c.Completes action ∨ c.Confirms action) := by
  have hm := c.marks_step action
  generalize (c.step action).2 = d at hm
  cases hm with
  | settles hm ha _ hf => simp [Fails, Confirms, hm, ha, hf]
  | completes hp _ hf  => simp [completes_iff, Fails, hp, hf]
  | fails hp _ hf      => simp [Fails, hp, hf]
  | reports _ _ hf     => simp [completes_iff, Fails, Confirms, hf]
  | keeps hh hc _ hf   =>
    have hx : ¬ c.Fails action := fun h => hh h.hears
    have hs : ¬ c.Completes action := fun h => hh h.hears
    simp [hx, hs, hc, hf]

-- What neither counts nor is content with the active camera leaves the status as degraded as it is.
theorem degraded_step (hh : ¬ c.Hears action) (hc : ¬ c.Confirms action) :
    (c.step action).2.status.degraded = c.status.degraded := by
  have hm := c.marks_step action
  generalize (c.step action).2 = d at hm
  cases hm with
  | keeps _ _ hc hf  => simp only [status, degraded, hc, hf]
  | settles hm ha    => exact absurd ⟨hm, ha⟩ hc
  | completes hp     => exact absurd hp hh
  | fails hp         => exact absurd hp hh
  | reports ha       => exact absurd ha hh

end

variable {config : Config.Switcher} {actions : List Action}

theorem captureDegraded_iff : ((new config).after actions).captureDegraded = true ↔
    (new config).KeepsFailing ((new config).after actions).active actions := by
  induction actions using List.reverseRecOn
  case nil => simp [new, KeepsFailing, not_stands_nil]
  case append_singleton actions last ih =>
    rw [after_concat, step_captureDegraded, KeepsFailing, stands_concat]
    by_cases hs : ((new config).after actions).Completes last
    case pos => simp [hs, hs.not_reports]
    case neg => rw [step_active hs, ih, KeepsFailing]

theorem transitionFailed_iff : ((new config).after actions).transitionFailed = true ↔
    (new config).SwitchFailed actions := by
  induction actions using List.reverseRecOn
  case nil => simp [new, SwitchFailed, not_stands_nil]
  case append_singleton actions last ih =>
    rw [after_concat, step_transitionFailed, ih, SwitchFailed, stands_concat]

section

variable {c : Controller} {action : Action} {t : Transition}

theorem issued_of_wanted (h : (c.step action).1.wanted? = some t) :
    (c.step action).2.Issued t := by
  have ha : c.Asks (some t, (c.step action).2) := by
    rw [← h]
    cases action
    case observe sample    => exact asks_observe sample
    case poll now          => exact asks_poll rfl rfl (.inl rfl)
    case command given now => exact c.asks_command given now
    all_goals cases h
  exact ha.issued

theorem issued_of_asked (h : t ∈ (new config).asked actions) :
    ((new config).after actions).Issued t := by
  induction actions using List.reverseRecOn
  case nil => cases h
  case append_singleton actions last ih =>
    rw [asked_concat, List.mem_append] at h
    rw [after_concat]
    obtain h | h := h
    · exact (ih h).later (later_step _ last)
    · exact issued_of_wanted (Option.mem_toList.mp h)

theorem after_not_pending (hi : c.Issued t) (hp : ¬ c.isPending t) (actions : List Action) :
    ¬ (c.after actions).isPending t := by
  induction actions generalizing c
  case nil => exact hp
  case cons action actions ih =>
    have hl := c.later_step action
    exact ih (hi.later hl) (hl.not_pending hi hp)

theorem superseded_not_pending {before later : List Action} {order : Action} (ho : order.IsOrder)
    (ht : t ∈ (new config).asked before) :
    ¬ ((new config).after (before ++ order :: later)).isPending t := by
  have hi := issued_of_asked ht
  rw [after_append, after_cons]
  exact after_not_pending (hi.later (later_step _ order)) (not_pending_of_order ho hi) later

end

-- What has nothing to do with the active camera and the pending switch after a run.
inductive Beside (config : Config.Switcher) (actions : List Action) : Action → Prop
  | sample {sample : BrightnessSample} : Beside config actions (.observe sample)
  | poll {now : Moment} : Beside config actions (.poll now)
  | refused {given : SwitchCommand} {fault : CommandFault} {now : Moment} :
    given.validate = .error fault → Beside config actions (.command given now)
  | auto {given : SwitchCommand} {now : Moment} :
    given.mode = .auto → Beside config actions (.command given now)
  | inactive {camera : Camera} {degraded : Bool} {error : Option String} :
    camera ≠ ((new config).after actions).active →
    Beside config actions (.setCaptureDegraded camera degraded error)
  | superseded {before later : List Action} {order : Action} {t : Transition} {e : SourceError}
    {now : Moment} : actions = before ++ order :: later → order.IsOrder →
    t ∈ (new config).asked before → Beside config actions (.fail t e now)

theorem Beside.not_hears {action : Action} (h : Beside config actions action) :
    ¬ ((new config).after actions).Hears action := by
  cases h with
  | sample | poll | refused | auto => exact id
  | inactive ha                    => exact ha
  | superseded hl ho ht            => exact hl ▸ superseded_not_pending ho ht

theorem Beside.not_confirms {action : Action} (h : Beside config actions action) :
    ¬ ((new config).after actions).Confirms action := by
  cases h with
  | sample | poll | inactive | superseded => exact id
  | auto hm    => simp [Confirms, hm]
  | refused hf =>
    rintro ⟨hm, hc⟩
    simp [SwitchCommand.validate, hm, hc] at hf

-- The status is degraded just as long as one of the two causes stands.
theorem degraded_iff_cause_stands (config : Config.Switcher) (actions : List Action) :
    let c := (new config).after actions
    (c.status.degraded = true ↔
      (new config).KeepsFailing c.active actions ∨ (new config).SwitchFailed actions) ∧
    ∀ action, Beside config actions action →
      (c.step action).2.status.degraded = c.status.degraded := by
  intro c
  refine ⟨?_, fun action h => degraded_step h.not_hears h.not_confirms⟩
  rw [← captureDegraded_iff, ← transitionFailed_iff, status, degraded, Bool.or_eq_true]

-- The day camera keeps failing and is left. It reports once more; then a switch back to it fails.
theorem degraded_after_late_report :
    let failing : Action := .setCaptureDegraded .day true (some "day camera: frame read failed")
    let leave : List Action :=
      [.command ⟨.manual, some .night, none⟩ ⟨0⟩, .complete ⟨1, .day, .night, "manual"⟩]
    let back : Action := .command ⟨.manual, some .day, none⟩ ⟨1⟩
    let fails : Action := .fail ⟨2, .night, .day, "manual"⟩ (.reading "gone") ⟨2⟩
    (((new {}).after (failing :: leave)).step failing).2.status.degraded = false ∧
    ((new {}).after (failing :: leave ++ [failing, back, fails])).status.degraded = true := by
  intro failing leave back fails
  have ⟨_, hl⟩ := degraded_iff_cause_stands {} (failing :: leave)
  have ⟨hd, _⟩ := degraded_iff_cause_stands {} (failing :: leave ++ [failing, back, fails])
  have hs : (new {}).SwitchFailed ((failing :: leave ++ [failing, back]) ++ [fails]) := .of_last rfl
  exact ⟨hl failing (.inactive nofun), hd.mpr (.inr hs)⟩

end DayNight.Controller
