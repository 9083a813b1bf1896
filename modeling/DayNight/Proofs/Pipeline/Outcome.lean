import DayNight.Proofs.Pipeline.Requests

namespace DayNight

namespace Controller

variable {c : Controller} {p : Transition}

-- While a switch is pending, nothing but a command asks for another.
theorem poll_of_pending {now : Moment} (h : c.pending = some p) : (c.poll now).1 = none := by
  rw [poll_of_waits (by simp [waits, h])]

theorem observe_of_pending {sample : BrightnessSample} (h : c.pending = some p) :
    (c.observe sample).1 = none := by
  obtain ⟨_, _, _, ho | ho⟩ := c.observe_cases sample
  · rw [ho]
  · rw [ho]
    exact poll_of_pending (p := p) h

end Controller

namespace Pipeline

namespace ControlPhase

-- How far the control thread is at most from its next turn at the queue.
def distance : ControlPhase → Nat
  | notStarted => 14
  | starting => 13
  | checkStop => 12
  | checkTime => 11
  | chooseProbe => 10
  | probeClaim _ => 9
  | probeOpening _ => 8
  | probeReading _ => 7
  | probeClose _ _ => 6
  | probeUnclaim _ _ => 5
  | probeSample _ _ => 4
  | retry => 3
  | wait => 2
  | receive _ => 1
  | execute _ => 23
  | checkPending _ => 22
  | claim _ _ => 21
  | claimWait _ _ => 20
  | opening _ _ _ => 19
  | unclaim _ _ => 14
  | reportFailure _ _ => 13
  | complete _ _ => 18
  | moveGate _ _ => 17
  | deposit _ _ => 16
  | closeStale _ _ => 15
  | unclaimStale _ _ => 14
  | unlock _ => 13
  | discard _ _ => 14
  | unclaimDiscarded _ _ => 13
  | exited => 0

theorem distance_next (next : AfterSwitch) : next.phase.distance ≤ 12 := by
  cases next <;> exact Nat.le_of_ble_eq_true rfl

-- What the control thread waits for, where it stands.
def signal : ControlPhase → Signal
  | probeOpening _ => .openLate
  | probeReading _ => .read (.error (.reading ""))
  | opening _ _ _ => .openLate
  | claimWait _ _ => .timeUp
  | _ => .go

theorem next_ne_notStarted (next : AfterSwitch) : next.phase ≠ .notStarted := by
  cases next <;> nofun

theorem next_ne_exited (next : AfterSwitch) : next.phase ≠ .exited := by
  cases next <;> nofun

end ControlPhase

namespace Action

-- What the pipeline does by itself, without a new command and before it is stopped.
def isOwn : Action → Bool
  | start => true
  | thread _ _ => true
  | request => true
  | _ => false

-- The control thread has waited in vain: for a request, or for a device to become free.
def isTimeOut : Action → Bool
  | thread .control .timeUp => true
  | _ => false

-- Any other step of the control thread.
def isTurn : Action → Bool
  | thread .control .timeUp => false
  | thread .control _ => true
  | _ => false

end Action

namespace State

variable {s t : State} {c : Camera} {clock : Clock} {signal : Signal} {w : Switch}
         {transition p : Transition}

-- The switches that wait for the control thread; one that is not in the queue yet has farther to
-- go.
def waiting (s : State) : Nat :=
  s.requests.length + 2 * ((s.carriedBy .caller).length +
    (Camera.all.flatMap fun c => (s.captures.get c).asked?.toList).length)

-- How much is left to do at most, counted in steps of the control thread.
def work (s : State) : Nat := 23 * s.waiting + s.control.phase.distance

theorem work_of_control {q : ControlPhase} (hp : s.control.phase = q)
    (hl : t.lock.bind Holder.asked? = s.lock.bind Holder.asked? := by rfl)
    (hr : t.requests = s.requests := by rfl) (hx : t.captures = s.captures := by rfl) :
    t.work + q.distance = s.work + t.control.phase.distance := by
  simp only [work, waiting, carriedBy, hl, hr, hx, hp]
  omega

theorem work_lt_of_control {q : ControlPhase} (hp : s.control.phase = q)
    (hd : t.control.phase.distance < q.distance := by exact Nat.le_of_ble_eq_true rfl)
    (hl : t.lock.bind Holder.asked? = s.lock.bind Holder.asked? := by rfl)
    (hr : t.requests = s.requests := by rfl) (hx : t.captures = s.captures := by rfl) :
    t.work < s.work := by
  have := work_of_control hp hl hr hx
  omega

theorem work_of_receive {wakeAt : Moment} {rest : List Transition}
    (hp : s.control.phase = .receive wakeAt) (hr : s.requests = transition :: rest) :
    State.work ({ s with requests := rest }.setControl (.execute ⟨transition, .checkStop⟩)) <
      s.work := by
  simp only [work, waiting, carriedBy, setControl, hp, hr, ControlPhase.distance, List.length_cons]
  omega

theorem ControlStep.work_lt (hs : s.ControlStep clock t) (hi : InStep s)
    (hp : s.controller.pending = some p) : t.work < s.work ∨
    (∃ wakeAt, s.control.phase = .receive wakeAt ∧ t.work ≤ s.work + 13) ∨
    (∃ w deadline, s.control.phase = .claimWait w deadline ∧ t.work ≤ s.work + 13) := by
  have hn (next : AfterSwitch) {q : ControlPhase} (hq : 12 < q.distance) :
      next.phase.distance < q.distance :=
    Nat.lt_of_le_of_lt (ControlPhase.distance_next next) hq
  cases hs
  case wakes hq =>
    have h := work_of_control (t := s.setControl .checkStop) hq
    simp only [setControl, ControlPhase.distance] at h
    exact .inr (.inl ⟨_, hq, by simp only [setControl]; omega⟩)
  case receives hq hr => exact .inl (work_of_receive hq hr)
  case triesAgain w deadline hq _ =>
    have h := work_of_control (t := s.setControl (.claim w deadline)) hq
    simp only [setControl, ControlPhase.distance] at h
    exact .inr (.inr ⟨_, _, hq, by simp only [setControl]; omega⟩)
  case retries hq _ =>
    rw [Controller.poll_of_pending hp]
    exact .inl (work_lt_of_control hq)
  case samples hq _ =>
    rw [Controller.observe_of_pending hp]
    exact .inl (work_lt_of_control hq)
  case skips w hq _ _ | reports w _ hq _ | drops w hq _ | discardUnclaims w _ hq =>
    exact .inl (work_lt_of_control hq (hn w.next (Nat.le_of_ble_eq_true rfl)))
  case unlocks w hq =>
    have hl : s.lock = some .control := hi.locked.mpr (hq ▸ rfl)
    exact .inl (work_lt_of_control hq (hn w.next (Nat.le_of_ble_eq_true rfl)) (by rw [hl]; rfl))
  case accepts hq hl _ =>
    exact .inl (work_lt_of_control hq (Nat.le_of_ble_eq_true rfl) (by rw [hl]; rfl))
  all_goals exact .inl (work_lt_of_control ‹s.control.phase = _›)

-- The control thread waits for the start at the beginning only, and ends after the stop only.
structure Lives (s : State) : Prop where
  notStarted : s.control.phase = .notStarted → s.owner = .idle
  exited     : s.control.phase = .exited → s.stop.raised

theorem ControlStep.lives (hs : s.ControlStep clock t) : t.Lives := by
  have ho {wanted : Option Transition} {next : AfterSwitch} :
      switchOr wanted next ≠ .notStarted ∧ switchOr wanted next ≠ .exited := by
    cases wanted
    case none => exact ⟨ControlPhase.next_ne_notStarted next, ControlPhase.next_ne_exited next⟩
    case some => exact ⟨nofun, nofun⟩
  cases hs
  case exits hr => exact ⟨nofun, fun _ => hr⟩
  case retries | samples => exact ⟨fun h => absurd h ho.1, fun h => absurd h ho.2⟩
  case skips w _ _ _ | reports w _ _ _ | drops w _ _ | discardUnclaims w _ _ | unlocks w _ =>
    exact ⟨fun h => absurd h (ControlPhase.next_ne_notStarted w.next),
      fun h => absurd h (ControlPhase.next_ne_exited w.next)⟩
  all_goals exact ⟨nofun, nofun⟩

theorem Step.lives (hs : s.Step t) (h : s.Lives) : t.Lives := by
  have hn {q : OwnerPhase} (ho : s.owner = q) (hq : q ≠ .idle := by nofun) :
      s.control.phase ≠ .notStarted :=
    fun hp => hq (ho.symm.trans (h.notStarted hp))
  cases hs
  case starts        => exact ⟨nofun, nofun⟩
  case spawnFails    => exact ⟨fun hp => (nomatch (phase_withdraw ..).symm.trans hp), fun _ => rfl⟩
  case control hs    => exact hs.lives
  case beginsStop ho => exact ⟨fun hp => absurd hp (hn ho), h.exited⟩
  case owner hs =>
    cases hs
    case raises ho => exact ⟨fun hp => absurd hp (hn ho), fun _ => rfl⟩
    case joins ho _ | abandons ho | joined ho | passes ho _ | takes ho _ | closes ho | unclaims ho
        | ends ho =>
      exact ⟨fun hp => absurd hp (hn ho), h.exited⟩
  case capture hs | detector hs => cases hs <;> exact ⟨h.notStarted, h.exited⟩
  all_goals exact ⟨h.notStarted, h.exited⟩

theorem lives_of_reachable {jpeg : JpegDecoder} {config : Config} {frames : FrameChannel}
    {detections : DetectionChannel} (h : Reachable (.new jpeg config frames detections) s) :
    s.Lives := by
  induction h
  case start => exact ⟨fun _ => rfl, nofun⟩
  case step _ he ih => exact (step_cases he).lives ih

-- The control thread is never stuck at its work.
theorem controlStep_isSome (hl : s.control.phase.committed? = none → s.lock = none)
    (hn : s.control.phase ≠ .notStarted) (he : s.control.phase ≠ .exited)
    (hr : ∀ wakeAt, s.control.phase = .receive wakeAt → s.requests ≠ []) (clock : Clock) :
    (s.controlStep clock s.control.phase.signal).isSome := by
  cases hp : s.control.phase
  case notStarted => exact absurd hp hn
  case exited     => exact absurd hp he
  case receive wakeAt =>
    cases hq : s.requests
    case nil  => exact absurd hq (hr wakeAt hp)
    case cons => simp [controlStep, probeStep, switchStep, idleStep, hp, hq, ControlPhase.signal]
  case chooseProbe | probeSample | retry | checkPending | reportFailure | complete =>
    have hf : s.lock = none := hl (hp ▸ rfl)
    simp [controlStep, probeStep, switchStep, idleStep, hp, withController, hf, ControlPhase.signal]
  all_goals
    simp only [controlStep, probeStep, switchStep, idleStep, hp, ControlPhase.signal]
    first | rfl | split <;> first | rfl | split <;> rfl

-- A capture thread hands its request on.
theorem request_work_lt (clock : Clock)
    (hp : (s.captures.get c).phase = .request transition) :
    ∃ t, s.captureStep c clock .go = some t ∧ t.work < s.work := by
  refine ⟨{ s with requests := s.requests ++ [transition] }.setCapture c
    ((s.captures.get c).goTo .sleep), by simp only [captureStep, hp], ?_⟩
  have h := (s.captures.flatMap_set_perm c ((s.captures.get c).goTo .sleep)
    fun thread => thread.asked?.toList).length_eq
  have ho : (s.captures.get c).asked?.toList = [transition] := by rw [CaptureThread.asked?, hp]; rfl
  have hn : ((s.captures.get c).goTo .sleep).asked?.toList = [] := rfl
  simp only [ho, hn, List.length_append, List.length_singleton, List.length_nil] at h
  simp only [work, waiting, carriedBy, setCapture, List.length_append, List.length_singleton]
  omega

-- A caller hands his request on.
theorem call_work_lt (hl : s.lock = some (.caller transition)) :
    ∃ t, s.request = some t ∧ t.work < s.work := by
  refine ⟨{ s with requests := s.requests ++ [transition], lock := none },
    by simp only [request, hl], ?_⟩
  simp only [work, waiting, carriedBy, hl, Option.bind_some, Option.bind_none, Holder.asked?,
    Option.toList_some, Option.toList_none, List.length_append, List.length_singleton,
    List.length_nil]
  omega

-- The control thread tries once more to claim a device, and waits no longer.
theorem claim_work_lt (clock : Clock) {deadline : Moment}
    (hp : s.control.phase = .claimWait w deadline) (hr : ¬ s.stop.raised) :
    ∃ u t, s.controlStep clock .timeUp = some u ∧
      u.controlStep ⟨deadline, clock.wall⟩ .go = some t ∧ t.work < s.work := by
  have hu : s.controlStep clock .timeUp = some (s.setControl (.claim w deadline)) := by
    simp [controlStep, probeStep, switchStep, hp, hr]
  cases hc : s.claims.claim? w.transition.target
  case some claims =>
    let t := { s with
      claims := claims, devices := (s.devices.begin w.transition.target).2 }.setControl
      (.opening w (s.devices.begin w.transition.target).1 (deadline.since deadline))
    have ht := work_of_control (s := s) (t := t) hp
    refine ⟨_, t, hu, by simp [controlStep, probeStep, switchStep, setControl, hc, t], ?_⟩
    simp only [t, setControl, ControlPhase.distance] at ht ⊢
    omega
  case none =>
    let t := s.setControl
      (.reportFailure w (.opening (s.deviceName w.transition.target) stillInUse))
    have ht := work_of_control (s := s) (t := t) hp
    have hd : deadline ≤ deadline := Nat.le_refl _
    refine ⟨_, t, hu, ?_, ?_⟩
    · simp [controlStep, probeStep, switchStep, setControl, hc, hd, t, deviceName]
    · simp only [t, setControl, ControlPhase.distance] at ht ⊢
      omega

theorem start_work_lt (ho : s.owner = .idle) (hp : s.control.phase = .notStarted)
    (hc : ∀ c, (s.captures.get c).asked? = none) :
    ∃ t, s.start.toOption = some t ∧ t.work < s.work := by
  have hx (c : Camera) : (PerCamera.get ⟨s.captures.day.goTo .checkStop,
      s.captures.night.goTo .checkStop⟩ c).asked? = none := by cases c <;> rfl
  refine ⟨{ s with
    captures := ⟨s.captures.day.goTo .checkStop, s.captures.night.goTo .checkStop⟩
    detector := s.detector.goTo .checkStop
    control := { s.control with phase := .starting }
    owner := .running }, by simp only [start, ho]; rfl, ?_⟩
  simp only [work, waiting, carriedBy, hx, hc, hp, ControlPhase.distance]
  omega

theorem request_of_asked (h : (s.captures.get c).asked? = some transition) :
    (s.captures.get c).phase = .request transition := by
  unfold CaptureThread.asked? at h
  cases hp : (s.captures.get c).phase
  all_goals rw [hp] at h; cases h
  rfl

-- As long as a switch is pending, something takes it further.
theorem exists_run_work_lt {jpeg : JpegDecoder} {config : Config} {frames : FrameChannel}
    {detections : DetectionChannel} (hs : Reachable (.new jpeg config frames detections) s)
    (hr : ¬ s.stop.raised) (hp : s.controller.pending = some p) :
    ∃ events t, (∀ e ∈ events, e.action.isOwn) ∧ s.run events = some t ∧ t.work < s.work := by
  have hi := InStep.new.reachable hs
  have hv := lives_of_reachable hs
  let now : Clock := ⟨.start, ⟨0⟩⟩
  have one (action : Action) {t : State} (ho : action.isOwn) (ht : s.step ⟨now, action⟩ = some t)
      (hw : t.work < s.work) : ∃ events t, (∀ e ∈ events, e.action.isOwn) ∧
        s.run events = some t ∧ t.work < s.work :=
    ⟨[⟨now, action⟩], t, by simpa using ho, run_single ht, hw⟩
  by_cases hl : ∃ transition, s.lock = some (.caller transition)
  case pos =>
    obtain ⟨_, hl⟩ := hl
    obtain ⟨t, ht, hw⟩ := call_work_lt hl
    exact one .request rfl ht hw
  by_cases hc : ∃ c transition, (s.captures.get c).asked? = some transition
  case pos =>
    obtain ⟨c, _, hc⟩ := hc
    obtain ⟨t, ht, hw⟩ := request_work_lt now (request_of_asked hc)
    exact one (.thread (.capture c) .go) rfl ht hw
  have hc (c : Camera) : (s.captures.get c).asked? = none :=
    Option.eq_none_iff_forall_ne_some.mpr fun transition h => hc ⟨c, transition, h⟩
  by_cases hn : s.control.phase = .notStarted
  case pos =>
    obtain ⟨t, ht, hw⟩ := start_work_lt (hv.notStarted hn) hn hc
    exact one .start rfl ht hw
  by_cases hq : ∃ wakeAt, s.control.phase = .receive wakeAt
  case pos =>
    obtain ⟨_, hq⟩ := hq
    -- Nobody else has it, so the switch is in the queue.
    have hm : p ∈ s.carried :=
      List.count_pos_iff.mp (by rw [onTheWay_of_reachable hs hr p hp]; exact Nat.one_pos)
    have hr : s.requests ≠ [] := by
      obtain h | h | ⟨c, h⟩ | ⟨w, h, _⟩ := carries_of_mem hm
      · exact absurd ⟨p, h⟩ hl
      · exact List.ne_nil_of_mem h
      · cases (hc c).symm.trans h
      · rw [hq] at h
        cases h
    obtain ⟨transition, rest, hk⟩ := List.exists_cons_of_ne_nil hr
    refine one (.thread .control .go) rfl ?_ (work_of_receive hq hk)
    simp [step, threadStep, controlStep, probeStep, switchStep, idleStep, hq, hk]
  by_cases hw : ∃ w deadline, s.control.phase = .claimWait w deadline
  case pos =>
    obtain ⟨w, deadline, hw⟩ := hw
    obtain ⟨u, t, hu, ht, hw⟩ := claim_work_lt now hw hr
    refine ⟨[⟨now, .thread .control .timeUp⟩, ⟨⟨deadline, ⟨0⟩⟩, .thread .control .go⟩],
      t, ?_, ?_, hw⟩
    · simp [Action.isOwn]
    · simpa [run, step, threadStep, hu] using ht
  have hfree (hf : s.control.phase.committed? = none) : s.lock = none := by
    cases hk : s.lock
    case none => rfl
    case some holder =>
      cases holder
      case caller => exact absurd ⟨_, hk⟩ hl
      case control =>
        have hf' := hi.locked.mp hk
        simp [hf] at hf'
  obtain ⟨t, ht⟩ := Option.isSome_iff_exists.mp (controlStep_isSome hfree hn
    (fun he => hr (hv.exited he)) (fun wakeAt hw => absurd ⟨wakeAt, hw⟩ hq) now)
  refine one (.thread .control _) rfl ht ?_
  obtain h | ⟨wakeAt, h, _⟩ | ⟨w, deadline, h, _⟩ := (controlStep_cases ht).work_lt hi hp
  · exact h
  · exact absurd ⟨wakeAt, h⟩ hq
  · exact absurd ⟨w, deadline, h⟩ hw

theorem stop_of_own {e : Event} (ho : e.action.isOwn) (he : s.step e = some t) :
    t.stop = s.stop := by
  obtain ⟨clock, action⟩ := e
  cases action
  case start =>
    simp only [step, start] at he
    split at he
    case h_1 => cases he; rfl
    case h_2 => cases he
  case thread thread signal =>
    cases thread
    case capture  => cases captureStep_cases he <;> rfl
    case detector => cases detectorStep_cases he <;> rfl
    case control  => cases controlStep_cases he <;> rfl
  case request =>
    simp only [step, request] at he
    split at he
    case h_1 => cases he; rfl
    case h_2 => cases he
  all_goals cases ho

theorem stop_of_run {events : List Event} (ho : ∀ e ∈ events, e.action.isOwn)
    (hs : s.run events = some t) : t.stop = s.stop := by
  induction events generalizing s
  case nil => cases hs; rfl
  case cons e events ih =>
    obtain ⟨u, he, hu⟩ := run_cons hs
    obtain ⟨ho, hos⟩ := List.forall_mem_cons.mp ho
    rw [ih hos hu, stop_of_own ho he]

theorem guard_opens {jpeg : JpegDecoder} {config : Config} {frames : FrameChannel}
    {detections : DetectionChannel}
    (hs : Reachable (.new jpeg config frames detections) s) (hr : ¬ s.stop.raised) :
    ∃ events t, (∀ e ∈ events, e.action.isOwn) ∧ s.run events = some t ∧
      t.controller.pending = none := by
  induction hn : s.work using Nat.strongRecOn generalizing s
  case ind n ih =>
    cases hp : s.controller.pending
    case none => exact ⟨[], s, nofun, rfl, hp⟩
    case some p =>
      obtain ⟨events, u, ho, hu, hw⟩ := exists_run_work_lt hs hr hp
      obtain ⟨others, t, hos, ht, hnone⟩ :=
        ih u.work (hn ▸ hw) (hs.run hu) (stop_of_run ho hu ▸ hr) rfl
      exact ⟨events ++ others, t, fun e he => (List.mem_append.mp he).elim (ho e) (hos e),
        run_append hu ht, hnone⟩

theorem work_eq_of_same (hr : t.requests = s.requests := by rfl)
    (hl : t.lock.bind Holder.asked? = s.lock.bind Holder.asked? := by rfl)
    (hp : t.control.phase = s.control.phase := by rfl)
    (hx : t.captures = s.captures := by rfl) : t.work = s.work := by
  simp only [work, waiting, carriedBy, hr, hl, hp, hx]

-- Nothing is asked for while a switch stays pending.
theorem wanted_eq_none {d : Controller} {wanted : Option Transition} (hi : InStep s)
    (ha : s.controller.Asks (wanted, d)) (hp : s.controller.pending = some p)
    (hq : d.pending = some p) : wanted = none := by
  cases wanted
  case none => rfl
  case some =>
    obtain rfl := Option.some.inj (ha.pending.symm.trans hq)
    exact absurd (hi.pending _ hp) ha.not_issued

theorem CaptureAsks.work_le (hs : s.CaptureAsks c t) (hi : InStep s)
    (hp : s.controller.pending = some p) (hq : t.controller.pending = some p) :
    t.work ≤ s.work := by
  cases hs
  case asks own wanted ho hn ht ha hr hl hk =>
    have h := (s.captures.flatMap_set_perm c own fun thread => thread.asked?.toList).length_eq
    have hc : t.lock.bind Holder.asked? = s.lock.bind Holder.asked? := by rw [hl]
    simp only [ho, hn, wanted_eq_none hi ha hp hq, List.length_append] at h
    simp only [work, waiting, carriedBy, ht, hr, hc, hk]
    omega
  case handsOn transition own ho hn =>
    have h := (s.captures.flatMap_set_perm c own fun thread => thread.asked?.toList).length_eq
    simp only [ho, hn, Option.toList_some, Option.toList_none, List.length_append,
      List.length_singleton, List.length_nil] at h
    simp only [work, waiting, carriedBy, setCapture, List.length_append, List.length_singleton]
    omega

-- It waits in vain only where it waits.
theorem turn_work_lt (h : s.controlStep clock signal = some t) (hs : signal ≠ .timeUp)
    (hi : InStep s) (hp : s.controller.pending = some p) : t.work < s.work := by
  obtain hw | ⟨wakeAt, hq, _⟩ | ⟨w, deadline, hq, _⟩ := (controlStep_cases h).work_lt hi hp
  · exact hw
  · cases signal
    case timeUp => exact absurd rfl hs
    case go =>
      simp only [controlStep, probeStep, switchStep, idleStep, hq] at h
      cases hr : s.requests
      case nil  => simp [hr] at h
      case cons =>
        obtain rfl := by simpa [hr] using h
        exact work_of_receive hq hr
    all_goals simp [controlStep, probeStep, switchStep, idleStep, hq] at h
  · cases signal
    case timeUp => exact absurd rfl hs
    all_goals simp [controlStep, probeStep, switchStep, idleStep, hq] at h

theorem control_work (h : s.controlStep clock signal = some t) (hi : InStep s)
    (hp : s.controller.pending = some p) :
    (Action.thread .control signal).isTurn.toNat + t.work ≤
      s.work + 13 * (Action.thread .control signal).isTimeOut.toNat := by
  cases signal
  case timeUp =>
    simp only [Action.isTurn, Action.isTimeOut, Bool.toNat_false, Bool.toNat_true]
    obtain hw | ⟨_, _, hw⟩ | ⟨_, _, _, hw⟩ := (controlStep_cases h).work_lt hi hp <;> omega
  all_goals
    have := turn_work_lt h nofun hi hp
    simp only [Action.isTurn, Action.isTimeOut, Bool.toNat_false, Bool.toNat_true]
    omega

theorem step_work {e : Event} (he : s.step e = some t) (hi : InStep s) (hw : s.Sound)
    (hp : s.controller.pending = some p) (hq : t.controller.pending = some p) :
    e.action.isTurn.toNat + t.work ≤ s.work + 13 * e.action.isTimeOut.toNat := by
  obtain ⟨clock, action⟩ := e
  have less (hw : t.work ≤ s.work) (ha : action.isTurn = false := by rfl) :
      action.isTurn.toNat + t.work ≤ s.work + 13 * action.isTimeOut.toNat := by
    rw [ha, Bool.toNat_false]
    omega
  cases action
  case thread thread signal =>
    cases thread
    case capture => exact less ((captureStep_cases he).asks.work_le hi hp hq)
    case control => exact control_work he hi hp
    case detector =>
      refine less (Nat.le_of_eq ?_)
      cases detectorStep_cases he <;> exact work_eq_of_same
  case owner =>
    refine less (Nat.le_of_eq ?_)
    cases ownerStep_cases he <;> exact work_eq_of_same
  case start =>
    simp only [step, start] at he
    split at he
    case h_2 => cases he
    case h_1 ho =>
      have hc (c : Camera) : (s.captures.get c).asked? = none := by
        rw [CaptureThread.asked?, hw.idle ho c]
        rfl
      obtain ⟨u, hu, hlt⟩ := start_work_lt ho (hi.idle ho) hc
      simp only [start, ho] at hu
      cases he
      cases hu
      exact less (Nat.le_of_lt hlt)
  case spawnFails =>
    obtain ⟨_, hf, rfl⟩ := spawnFails_eq he
    refine less ?_
    simp only [work, waiting, withdraw_congr CaptureThread.asked? hf, phase_withdraw,
      control_of_fresh hf]
    exact Nat.add_le_add_left (Nat.zero_le _) _
  case beginStop =>
    simp only [step, beginStop] at he
    split at he
    case h_1 => cases he; exact less (Nat.le_of_eq work_eq_of_same)
    case h_2 => cases he
  case command command =>
    obtain ⟨hl, rfl⟩ := command_eq he
    have hn := wanted_eq_none hi (s.controller.asks_command command clock.moment) hp hq
    exact less (Nat.le_of_eq (work_eq_of_same rfl (by rw [hn, hl]; rfl)))
  case request =>
    simp only [step, request] at he
    split at he
    case h_2 => cases he
    case h_1 hl =>
      obtain ⟨u, hu, hlt⟩ := call_work_lt hl
      simp only [request, hl] at hu
      cases he
      cases hu
      exact less (Nat.le_of_lt hlt)
  case readFrame | readDetection => cases he; exact less (Nat.le_of_eq work_eq_of_same)
  case arriveLate | refuseLate | closeStray =>
    obtain ⟨_, _, rfl⟩ := Option.map_eq_some_iff.mp he
    exact less (Nat.le_of_eq work_eq_of_same)

-- What is pending in the end was pending all the time, from when it was asked for.
theorem pending_of_run {initial : State} {events : List Event} (hi : InStep initial)
    (hs : Reachable initial s) (h : s.run events = some t) (hp : t.controller.pending = some p)
    (hk : s.controller.Issued p) : s.controller.pending = some p := by
  induction events generalizing s
  case nil => cases h; exact hp
  case cons e events ih =>
    have ⟨u, he, hu⟩ := run_cons h
    have hl := later_of_step (hi.reachable hs) he
    obtain hp | hn := hl.pending p (ih (hs.step he) hu (hk.later hl))
    · exact hp
    · exact absurd hk (Nat.not_lt.mpr hn.1)

-- While a switch stays pending, the control thread has only so many turns, apart from its vain
-- waiting.
theorem run_work {jpeg : JpegDecoder} {config : Config} {frames : FrameChannel}
    {detections : DetectionChannel}
    {events : List Event} (hs : Reachable (.new jpeg config frames detections) s)
    (h : s.run events = some t) (hp : s.controller.pending = some p)
    (hq : t.controller.pending = some p) :
    events.countP (·.action.isTurn) + t.work ≤
      s.work + 13 * events.countP (·.action.isTimeOut) := by
  induction events generalizing s
  case nil => cases h; simp
  case cons e events ih =>
    have ⟨u, he, hu⟩ := run_cons h
    have hi := InStep.new.reachable hs
    have hup : u.controller.pending = some p := pending_of_run .new (hs.step he) hu hq
      ((hi.pending p hp).later (later_of_step hi he))
    have hstep := step_work he hi (tracked_of_reachable hs).1 hp hup
    have hrun := ih (hs.step he) hu hup
    have one (b : Bool) : b.toNat = if b then 1 else 0 := by cases b <;> rfl
    simp only [List.countP_cons, ← one]
    omega

-- Until the stop, a pending switch is on its way in one place, and it is not pending any more when
-- the control thread is done with it. The thread comes there after so many turns at most, apart
-- from those on which it waits in vain, and the pipeline can always bring it there by itself.
theorem pending_has_one_carrier {jpeg : JpegDecoder} {config : Config} {frames : FrameChannel}
    {detections : DetectionChannel} (hs : Reachable (.new jpeg config frames detections) s)
    (hr : ¬ s.stop.raised) :
    (∀ p, s.controller.pending = some p → ∃ carrier, s.carriers p = [carrier]) ∧
    (∀ e t w, s.step e = some t → s.control.phase.switch? = some w →
      t.control.phase.switch? ≠ some w → ¬ t.controller.isPending w.transition) ∧
    (∀ p events t, s.controller.pending = some p → s.run events = some t →
      t.controller.pending = some p →
      events.countP (·.action.isTurn) ≤ s.work + 13 * events.countP (·.action.isTimeOut)) ∧
    ∃ events t, (∀ e ∈ events, e.action.isOwn) ∧ s.run events = some t ∧
      t.controller.pending = none := by
  refine ⟨fun p hp => ?_, fun e t w he hw hn => ?_, fun p events t hp ht hq => ?_,
    guard_opens hs hr⟩
  · exact List.length_eq_one_iff.mp ((s.length_carriers p).trans (onTheWay_of_reachable hs hr p hp))
  · cases step_cases he
    case starts ho =>
      rw [(InStep.new.reachable hs).idle ho] at hw
      cases hw
    case spawnFails _ hf =>
      rw [control_of_fresh hf] at hw
      cases hw
    case control hs' => exact hs'.finishes (reported_of_reachable hs) hw hn hr
    case owner hs' | capture hs' | detector hs' => cases hs' <;> exact absurd hw hn
    all_goals exact absurd hw hn
  · exact Nat.le_of_add_right_le (run_work hs ht hp hq)

-- A second command comes before the switch for the first one is in hand.
def commandedTwice : List Event :=
  let event (action : Action) : Event := ⟨⟨.start, ⟨0⟩⟩, action⟩
  let night := event (.command ⟨.manual, some .night, none⟩)
  [event .start, night, event .request, night, event .request]
    ++ List.replicate 5 (event (.thread .control .go))
    ++ [event (.thread .control .openLate)]
    ++ List.replicate 4 (event (.thread .control .go))

theorem pending_has_one_carrier_commanded_twice : ∃ s,
    Reachable (.new .blind {} (.inProcess none) (.inProcess none)) s ∧
    s.controller.pending = some ⟨2, .day, .night, "manual"⟩ ∧
    s.control.phase.switch? = some ⟨⟨1, .day, .night, "manual"⟩, .checkStop⟩ ∧
    s.carriers ⟨2, .day, .night, "manual"⟩ = [.queue] ∧
    ∃ events t, (∀ e ∈ events, e.action.isOwn) ∧ s.run events = some t ∧
      t.controller.pending = none := by
  have hr : ((State.new .blind {} (.inProcess none) (.inProcess none)).run commandedTwice).map
      (fun s => (s.stop.raised, s.controller.pending, s.control.phase.switch?, s.requests)) =
      some (false, some ⟨2, .day, .night, "manual"⟩,
        some ⟨⟨1, .day, .night, "manual"⟩, .checkStop⟩, [⟨2, .day, .night, "manual"⟩]) := by
    rfl
  have ⟨s, hrun, h⟩ := Option.map_eq_some_iff.mp hr
  simp only [Prod.mk.injEq] at h
  have ⟨hf, hp, hw, hq⟩ := h
  have hs := Reachable.run .start hrun
  have ⟨hone, _, _, hout⟩ := pending_has_one_carrier hs (by simp [hf])
  have ⟨carrier, hc⟩ := hone _ hp
  have hm : Carrier.queue ∈ s.carriers ⟨2, .day, .night, "manual"⟩ := by
    simp [carriers, carriedBy, hq]
  rw [hc, List.mem_singleton] at hm
  exact ⟨s, hs, hp, hw, hm ▸ hc, hout⟩

end State

end Pipeline

end DayNight
