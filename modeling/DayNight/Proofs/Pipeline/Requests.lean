import DayNight.Proofs.Pipeline.Degraded
import DayNight.Proofs.Pipeline.Events

namespace DayNight

namespace Controller.Asks

variable {c d : Controller} {t : Transition}

theorem quiet_pending (h : c.Asks (none, d)) : d.pending = c.pending ∨ d.pending = none := by
  cases h
  assumption

theorem not_issued (h : c.Asks (some t, d)) : ¬ c.Issued t := by
  cases h
  case begins hn => exact hn ▸ Nat.lt_irrefl _

end Controller.Asks

namespace Pipeline

def Holder.asked? : Holder → Option Transition
  | caller transition => some transition
  | control => none

namespace ControlPhase

-- The transition that the control thread is about to carry out, until it reports the outcome.
def trying? : ControlPhase → Option Transition
  | execute w => some w.transition
  | checkPending w => some w.transition
  | claim w _ => some w.transition
  | claimWait w _ => some w.transition
  | opening w _ _ => some w.transition
  | unclaim w _ => some w.transition
  | reportFailure w _ => some w.transition
  | complete w _ => some w.transition
  | _ => none

theorem trying_next (next : AfterSwitch) : next.phase.trying? = none := by
  cases next <;> rfl

theorem trying_switchOr (wanted : Option Transition) (next : AfterSwitch) :
    (State.switchOr wanted next).trying? = wanted := by
  cases wanted
  case none   => exact trying_next next
  case some _ => rfl

theorem switch_of_trying {phase : ControlPhase} {transition : Transition}
    (h : phase.trying? = some transition) :
    ∃ w, phase.switch? = some w ∧ w.transition = transition := by
  cases phase
  case execute | checkPending | claim | claimWait | opening | unclaim | reportFailure | complete =>
    exact ⟨_, rfl, Option.some.inj h⟩
  all_goals cases h

end ControlPhase

-- Where a switch that was asked for can be on its way.
inductive Carrier
  | caller
  | queue
  | capture (camera : Camera)
  | control
  deriving DecidableEq

namespace State

variable {s t : State} {c : Camera} {clock : Clock} {signal : Signal} {own : CaptureThread}
         {w : Switch} {transition p : Transition} {a b : List Transition}

def carriedBy (s : State) : Carrier → List Transition
  | .caller => (s.lock.bind Holder.asked?).toList
  | .queue => s.requests
  | .capture c => (s.captures.get c).asked?.toList
  | .control => s.control.phase.trying?.toList

-- All those who carry a transition, each as often as he carries it.
def carriers (s : State) (transition : Transition) : List Carrier :=
  [.caller, .queue, .capture .day, .capture .night, .control].flatMap fun carrier =>
    List.replicate ((s.carriedBy carrier).count transition) carrier

-- The transitions on their way.
def carried (s : State) : List Transition :=
  s.carriedBy .caller ++ s.carriedBy .queue
    ++ (Camera.all.flatMap fun c => (s.captures.get c).asked?.toList) ++ s.carriedBy .control

theorem length_carriers (s : State) (transition : Transition) :
    (s.carriers transition).length = s.carried.count transition := by
  simp [carriers, carried, carriedBy, Camera.all]

theorem carries_of_mem (h : transition ∈ s.carried) : s.Carries transition := by
  simp only [carried, carriedBy, List.mem_append, List.mem_flatMap, Option.mem_toList] at h
  obtain ((h | h) | ⟨c, _, h⟩) | h := h
  · obtain ⟨holder, hl, hh⟩ := Option.bind_eq_some_iff.mp h
    cases holder
    case caller  => cases hh; exact .inl hl
    case control => cases hh
  · exact .inr (.inl h)
  · exact .inr (.inr (.inl ⟨c, h⟩))
  · exact .inr (.inr (.inr (ControlPhase.switch_of_trying h)))

-- What is pending after a step was pending before, and has as many carriers as before; or it is new
-- and has got one.
def Hands (s t : State) : Prop := ∀ p, t.controller.pending = some p →
  (s.controller.pending = some p ∧ t.carried.count p = s.carried.count p) ∨
  (¬ s.controller.Issued p ∧ t.carried.count p = s.carried.count p + 1)

namespace Hands

theorem keep (hp : (a ++ t.carried).Perm (a ++ s.carried))
    (hc : t.controller.pending = s.controller.pending := by rfl) : s.Hands t := fun p h =>
  .inl ⟨hc ▸ h, ((List.perm_append_left_iff a).mp hp).count_eq p⟩

theorem ofNone (h : t.controller.pending = none) : s.Hands t := fun _ hp => nomatch h.symm.trans hp

theorem asks {wanted : Option Transition} (ha : s.controller.Asks (wanted, t.controller))
    (hp : ([] ++ t.carried).Perm (wanted.toList ++ s.carried)) : s.Hands t := by
  intro p h
  cases wanted
  case none =>
    obtain hk | hk := ha.quiet_pending
    · exact .inl ⟨hk ▸ h, hp.count_eq p⟩
    · cases hk.symm.trans h
  case some transition =>
    obtain rfl := Option.some.inj (ha.pending.symm.trans h)
    have hn : t.carried.count transition = ([transition] ++ s.carried).count transition :=
      hp.count_eq transition
    rw [List.count_append, List.count_singleton_self, Nat.add_comm] at hn
    exact .inr ⟨ha.not_issued, hn⟩

theorem drop (hi : ¬ s.controller.isPending transition)
    (hp : ([transition] ++ t.carried).Perm ([] ++ s.carried))
    (hc : t.controller.pending = s.controller.pending := by rfl) : s.Hands t := by
  intro p h
  have hs : s.controller.pending = some p := hc ▸ h
  have hn : transition ≠ p := by
    rintro rfl
    exact hi (Controller.isPending_iff.mpr ⟨_, hs, rfl⟩)
  refine .inl ⟨hs, ?_⟩
  have h := hp.count_eq p
  rwa [List.count_append, List.count_singleton, if_neg (by simpa using hn), Nat.zero_add] at h

end Hands

-- A capture thread asks for a switch, if any, or hands on what it has asked for.
inductive CaptureAsks (s : State) (c : Camera) : State → Prop
  | asks {t : State} {own : CaptureThread} {wanted} : t.captures = s.captures.set c own →
    (s.captures.get c).asked? = none → own.asked? = wanted →
    s.controller.Asks (wanted, t.controller) → t.requests = s.requests → t.lock = s.lock →
    t.control.phase = s.control.phase → CaptureAsks s c t
  | handsOn {transition : Transition} {own : CaptureThread} :
    (s.captures.get c).asked? = some transition → own.asked? = none →
    CaptureAsks s c ({ s with requests := s.requests ++ [transition] }.setCapture c own)

theorem captureAsks_of_quiet {q : CapturePhase} (hp : (s.captures.get c).phase = q)
    (ht : t.captures = s.captures.set c own) (hn : own.asked? = none)
    (hq : q.asked? = none := by rfl) (hc : t.controller = s.controller := by rfl)
    (hr : t.requests = s.requests := by rfl) (hl : t.lock = s.lock := by rfl)
    (hk : t.control.phase = s.control.phase := by rfl) : s.CaptureAsks c t :=
  .asks ht (by rw [CaptureThread.asked?, hp, hq]) hn (hc ▸ .quiet rfl rfl rfl (.inl rfl)) hr hl hk

theorem CaptureStep.asks (h : s.CaptureStep c clock signal (s.captures.get c) t) :
    s.CaptureAsks c t := by
  have ho {q : CapturePhase} (hp : (s.captures.get c).phase = q) :
      (s.captures.get c).asked? = q.asked? := by rw [CaptureThread.asked?, hp]
  have hd (degraded : Bool) (error : Option String) : s.controller.Asks
      (none, s.controller.setCaptureDegraded c degraded error) := by
    obtain ⟨_, _, h⟩ := s.controller.setCaptureDegraded_frame c degraded error
    exact h ▸ .quiet rfl rfl rfl (.inl rfl)
  have ha (value : Float) : s.controller.Asks ((s.controller.observe ⟨c, value, clock.moment⟩).1,
      (s.controller.observe ⟨c, value, clock.moment⟩).2) := Controller.asks_observe _
  cases h
  case begins hp _ | wakes hp _ _ | misses hp _ | takes hp _ _ | replaces hp _ _ | goesOn hp _ _
      | needs hp _ _ | passes hp _ | claims hp _ | opens hp | fails hp | late hp | closes hp
      | reads hp _ | recovers hp _ _ | withholds hp _ | readFails hp | gives hp _ _ =>
    exact captureAsks_of_quiet hp rfl rfl
  case ends hp _ | wakesUp hp _ _ | yields hp _ | publishes hp _ _ | unclaims hp | counts hp _
      | recounts hp _ _ =>
    exact captureAsks_of_quiet hp rfl (by simp)
  case clears hp _ | reports hp _ => exact .asks rfl (ho hp) (by simp) (hd _ _) rfl rfl rfl
  case samples value hp _ hw | wants value _ hp _ hw =>
    have ha := ha value
    rw [hw] at ha
    exact .asks rfl (ho hp) rfl ha rfl rfl rfl
  case requests hp => exact .handsOn (ho hp) rfl

theorem CaptureAsks.hands (h : s.CaptureAsks c t) : s.Hands t := by
  cases h
  case asks own wanted ho hn ht ha hr hl hp =>
    refine .asks ha (List.perm_iff_count.mpr fun p => ?_)
    have h := s.captures.count_set c own (fun thread => thread.asked?.toList) p
    have hc : t.lock.bind Holder.asked? = s.lock.bind Holder.asked? := by rw [hl]
    simp only [ho, hn, Option.toList_none, List.count_nil] at h
    simp only [carried, carriedBy, List.count_append, ht, hr, hc, hp, List.count_nil]
    omega
  case handsOn transition own ho hn =>
    refine .keep (a := []) (List.perm_iff_count.mpr fun p => ?_)
    have h := s.captures.count_set c own (fun thread => thread.asked?.toList) p
    simp only [ho, hn, Option.toList_some, Option.toList_none, List.count_nil] at h
    simp only [carried, carriedBy, setCapture, List.count_append]
    omega

-- The control thread takes something else in hand than before.
theorem carried_of_control {q : ControlPhase} (hp : s.control.phase = q)
    (ha : q.trying?.toList = a := by rfl) (hb : t.control.phase.trying?.toList = b := by rfl)
    (hl : t.lock.bind Holder.asked? = s.lock.bind Holder.asked? := by rfl)
    (hr : t.requests = s.requests := by rfl) (hx : t.captures = s.captures := by rfl) :
    (a ++ t.carried).Perm (b ++ s.carried) := by
  refine List.perm_iff_count.mpr fun p => ?_
  simp only [List.count_append, carried, carriedBy, ha, hb, hp, hl, hr, hx]
  omega

theorem ControlStep.hands (hs : s.ControlStep clock t) (hi : InStep s) (hr : ¬ s.stop.raised) :
    s.Hands t := by
  have hd (w : Switch) : w.done.trying?.toList = [] := by
    rw [Switch.done, ControlPhase.trying_next, Option.toList_none]
  cases hs
  case drops => contradiction
  case receives transition rest hp hr =>
    refine .keep (a := []) (List.perm_iff_count.mpr fun p => ?_)
    simp only [carried, carriedBy, setControl, List.count_append, hr, hp, ControlPhase.trying?,
      Option.toList_some, Option.toList_none, List.count_nil, List.count_cons]
    omega
  case retries hp _ =>
    have ha : s.controller.Asks ((s.controller.poll clock.moment).1,
      (s.controller.poll clock.moment).2) := Controller.asks_poll rfl rfl (.inl rfl)
    exact .asks ha (carried_of_control hp rfl (by rw [setControl, ControlPhase.trying_switchOr]))
  case samples c value hp _ =>
    have ha : s.controller.Asks ((s.controller.observe ⟨c, value, clock.moment⟩).1,
      (s.controller.observe ⟨c, value, clock.moment⟩).2) := Controller.asks_observe _
    exact .asks ha (carried_of_control hp rfl (by rw [setControl, ControlPhase.trying_switchOr]))
  case skips w hp _ hi => exact .drop hi (carried_of_control hp rfl (hd w))
  case loses hp _ hi => exact .drop hi (carried_of_control hp)
  case reports w _ hp _ =>
    cases hk : s.controller.isPending w.transition
    case true  => exact .ofNone (congrArg _ (Controller.fail_of_pending hk))
    case false =>
      exact .drop (by simp [hk]) (carried_of_control hp rfl (hd w))
        (congrArg _ (Controller.fail_of_not_pending hk))
  case accepts hk => exact .ofNone (by rw [setControl, Controller.complete_of_pending hk])
  case unlocks w hp =>
    have hl : s.lock = some .control := hi.locked.mpr (hp ▸ rfl)
    exact .keep (carried_of_control hp rfl (hd w) (by rw [hl]; rfl))
  case discardUnclaims w _ hp => exact .keep (carried_of_control hp rfl (hd w))
  all_goals exact .keep (carried_of_control ‹s.control.phase = _›)

theorem Step.hands (hs : s.Step t) (hi : InStep s) (hw : s.Sound) (hr : ¬ s.stop.raised) :
    s.Hands t := by
  cases hs
  -- Before the start no thread asks for anything.
  case starts ho =>
    have hx (c : Camera) : (PerCamera.get ⟨s.captures.day.goTo .checkStop,
        s.captures.night.goTo .checkStop⟩ c).asked? = (s.captures.get c).asked? := by
      have h : (s.captures.get c).asked? = none := by rw [CaptureThread.asked?, hw.idle ho c]; rfl
      cases c <;> exact h.symm
    refine .keep (a := []) (.of_eq ?_)
    simp only [carried, carriedBy, hx, hi.idle ho]
    rfl
  case spawnFails hf =>
    refine .keep (a := []) (.of_eq ?_)
    simp only [carried, carriedBy, withdraw_congr CaptureThread.asked? hf, phase_withdraw,
      control_of_fresh hf]
    rfl
  case capture hs => exact hs.asks.hands
  case control hs => exact hs.hands hi hr
  case command command now hl =>
    have hw (wanted : Option Transition) :
        ((wanted.map Holder.caller).bind Holder.asked?).toList = wanted.toList := by
      cases wanted <;> rfl
    refine .asks (s.controller.asks_command command now) (List.perm_iff_count.mpr fun p => ?_)
    simp only [carried, carriedBy, List.count_append, hl, hw, Option.bind_none, Option.toList_none,
      List.count_nil]
    omega
  case requests transition hl =>
    refine .keep (a := []) (List.perm_iff_count.mpr fun p => ?_)
    simp only [carried, carriedBy, List.count_append, hl, Option.bind_some, Option.bind_none,
      Holder.asked?, Option.toList_some, Option.toList_none, List.count_nil]
    omega
  case owner hs    => cases hs <;> exact .keep (a := []) (.refl _)
  case detector hs => cases hs <;> exact .keep (a := []) (.refl _)
  all_goals exact .keep (a := []) (.refl _)

-- A stop is for good.
theorem Step.stop (hs : s.Step t) : t.stop = s.stop ∨ t.stop.raised := by
  cases hs
  case spawnFails => exact .inr rfl
  case owner hs =>
    cases hs
    case raises => exact .inr rfl
    all_goals exact .inl rfl
  case capture hs | detector hs | control hs => cases hs <;> exact .inl rfl
  all_goals exact .inl rfl

theorem not_raised_of_step (hs : s.Step t) (hr : ¬ t.stop.raised) : ¬ s.stop.raised := by
  obtain h | h := hs.stop
  · exact h ▸ hr
  · exact absurd h hr

-- Until the stop, what is pending is on its way.
def OnTheWay (s : State) : Prop :=
  ¬ s.stop.raised → ∀ p, s.controller.pending = some p → s.carried.count p = 1

theorem OnTheWay.step (h : s.OnTheWay) (hs : s.Step t) (hi : InStep s) (hw : s.Sound) :
    t.OnTheWay := by
  intro hr p hp
  have hr := not_raised_of_step hs hr
  cases hs.hands hi hw hr p hp
  case inl hk => rw [hk.2, h hr p hk.1]
  case inr hk =>
    have hn : s.carried.count p = 0 :=
      List.count_eq_zero_of_not_mem fun hm => hk.1 (hi.issued p (carries_of_mem hm))
    rw [hk.2, hn]

theorem onTheWay_of_reachable {jpeg : JpegDecoder} {config : Config} {frames : FrameChannel}
    {detections : DetectionChannel} (h : Reachable (.new jpeg config frames detections) s) :
    s.OnTheWay := by
  induction h
  case start => exact fun _ _ hp => nomatch hp
  case step hr he ih =>
    exact ih.step (step_cases he) (InStep.new.reachable hr) (tracked_of_reachable hr).1

-- A switch of which the controller knows the outcome is not pending.
def Reported (s : State) : Prop := ∀ w, s.control.phase.switch? = some w →
  s.control.phase.trying? = none → ¬ s.controller.isPending w.transition

theorem Reported.keep (h : s.Reported) (hp : t.control.phase = s.control.phase)
    (hi : InStep s) (hl : s.controller.Later t.controller) : t.Reported := by
  intro w hw ht
  rw [hp] at hw ht
  exact hl.not_pending (hi.issued _ (.inr (.inr (.inr ⟨w, hw, rfl⟩)))) (h w hw ht)

theorem not_pending_of_complete (h : s.controller.isPending transition = true) :
    ¬ (s.controller.complete transition).2.isPending transition := by
  rw [Controller.complete_of_pending h]
  exact Bool.false_ne_true

theorem not_pending_of_fail (s : State) (transition : Transition) (e : SourceError) (now : Moment) :
    ¬ (s.controller.fail transition e now).isPending transition := by
  cases h : s.controller.isPending transition
  case true  => rw [Controller.fail_of_pending h]; exact Bool.false_ne_true
  case false => rw [Controller.fail_of_not_pending h, h]; exact Bool.false_ne_true

theorem Reported.control (h : s.Reported) (hs : s.ControlStep clock t) : t.Reported := by
  have hd (w v : Switch) (hv : w.done.switch? = some v) : False :=
    nomatch (ControlPhase.switch_next w.next).symm.trans hv
  have ho {wanted : Option Transition} {next : AfterSwitch} {v : Switch}
      (hv : (switchOr wanted next).switch? = some v)
      (ht : (switchOr wanted next).trying? = none) : False := by
    rw [ControlPhase.trying_switchOr] at ht
    subst ht
    exact nomatch (ControlPhase.switch_next next).symm.trans hv
  intro v hv ht
  cases hs
  case accepts hi =>
    cases hv
    exact not_pending_of_complete hi
  case loses hi => cases hv; exact hi
  case moves hp | leaves hp _ | replaces hp _ | staleCloses hp | staleUnclaims hp | discards hp =>
    cases hv
    exact h _ (hp ▸ rfl) (hp ▸ rfl)
  case unlocks w _ | discardUnclaims w _ _ | skips w _ _ _ | drops w _ _ | reports w _ _ _ =>
    exact (hd w v hv).elim
  case retries | samples => exact (ho hv ht).elim
  all_goals first | (cases hv; done) | cases ht

theorem ControlStep.finishes (hs : s.ControlStep clock t) (h : s.Reported)
    (hw : s.control.phase.switch? = some w) (hn : t.control.phase.switch? ≠ some w)
    (hr : ¬ s.stop.raised) : ¬ t.controller.isPending w.transition := by
  cases hs
  case drops => contradiction
  case skips hp _ hi => rw [hp] at hw; cases hw; exact hi
  case reports hp _ => rw [hp] at hw; cases hw; exact not_pending_of_fail s _ _ _
  case unlocks hp | discardUnclaims hp => exact h w hw (hp ▸ rfl)
  all_goals
    rw [‹s.control.phase = _›] at hw
    first | (cases hw; done) | exact absurd hw hn

theorem Step.reported (hs : s.Step t) (h : s.Reported) (hi : InStep s)
    (hl : s.controller.Later t.controller) : t.Reported := by
  cases hs
  case starts => exact fun _ hv => nomatch hv
  case spawnFails =>
    intro _ hv
    rw [phase_withdraw] at hv
    cases hv
  case owner hs | capture hs | detector hs => cases hs <;> exact h.keep rfl hi hl
  case control hs => exact h.control hs
  all_goals exact h.keep rfl hi hl

theorem later_of_step {e : Event} (hi : InStep s) (he : s.step e = some t) :
    s.controller.Later t.controller := by
  cases step_progress hi.idle he
  case steady hs => exact hs.later
  case accepts   => exact Controller.later_complete _
  all_goals exact .refl

theorem reported_of_reachable {jpeg : JpegDecoder} {config : Config} {frames : FrameChannel}
    {detections : DetectionChannel} (h : Reachable (.new jpeg config frames detections) s) :
    s.Reported := by
  induction h
  case start => exact fun _ hv => nomatch hv
  case step hr he ih =>
    have hi := InStep.new.reachable hr
    exact (step_cases he).reported ih hi (later_of_step hi he)

end State

end Pipeline

end DayNight
