import DayNight.Pipeline.Shutdown
import DayNight.Proofs.Pipeline.Devices
import DayNight.Proofs.Pipeline.Leases

namespace DayNight

theorem Camera.mem_all (c : Camera) : c ∈ all := by
  cases c <;> decide

namespace Pipeline

theorem Thread.mem_all (thread : Thread) : thread ∈ all := by
  cases thread
  case capture c => cases c <;> decide
  all_goals decide

theorem Thread.mem_onward {thread other : Thread} (h : other ∉ thread.before) :
    other ∈ thread.onward := by
  have hm : other ∈ thread.before ++ thread.onward :=
    (List.takeWhile_append_dropWhile (p := (· ≠ thread)) (l := all)).symm ▸ other.mem_all
  exact (List.mem_append.mp hm).resolve_left h

namespace State

variable {s t u : State} {c : Camera} {e : Event} {thread : Thread} {clock : Clock}
         {signal : Signal} {jpeg : JpegDecoder} {config : Config} {frames : FrameChannel}
         {detections : DetectionChannel}

-- The thread has not begun, or has ended.
def isAtRest (s : State) : Thread → Bool
  | .capture c => ((s.captures.get c).phase matches .notStarted | .exited)
  | .detector => (s.detector.phase matches .notStarted | .exited)
  | .control => (s.control.phase matches .notStarted | .exited)

theorem isAtRest_of_hasExited (h : s.hasExited thread = true) : s.isAtRest thread = true := by
  cases thread
  case capture c =>
    rw [hasExited, CaptureThread.hasExited] at h
    rw [isAtRest]
    cases hp : (s.captures.get c).phase <;> simp_all
  case detector =>
    rw [hasExited, DetectorThread.hasExited] at h
    rw [isAtRest]
    cases hp : s.detector.phase <;> simp_all
  case control =>
    rw [hasExited, ControlThread.hasExited] at h
    rw [isAtRest]
    cases hp : s.control.phase <;> simp_all

theorem hasExited_withdraw {threads : List Thread} (h : thread ∈ threads) :
    (s.withdraw threads).hasExited thread = true := by
  cases thread
  case capture c =>
    rw [hasExited, captures_withdraw, if_pos h]
    rfl
  case detector =>
    have hd : (s.withdraw threads).detector = s.detector.goTo .exited := if_pos h
    rw [hasExited, hd]
    rfl
  case control =>
    have hc : (s.withdraw threads).control = { s.control with phase := .exited } := if_pos h
    rw [hasExited, hc]
    rfl

-- A thread at rest does nothing until the start.
theorem Step.isAtRest (hs : s.Step t) (h : s.isAtRest thread = true) :
    t.isAtRest thread = true ∨ t.owner = .running := by
  cases thread
  case capture c =>
    rw [State.isAtRest] at h ⊢
    obtain hx | ⟨_, hr, _⟩ | ⟨_, _, hx⟩ | ⟨_, _, hs⟩ := hs.own c
    · exact .inl (hx ▸ h)
    · exact .inr hr
    · exact .inl (by rw [hx]; rfl)
    · cases hs <;> rw [‹(s.captures.get c).phase = _›] at h <;> cases h
  case detector =>
    rw [State.isAtRest] at h ⊢
    cases hs
    case starts => exact .inr rfl
    case spawnFails _ hf =>
      obtain hd | ⟨_, hd⟩ := withdraw_detector hf
      · exact .inl (by simp only [hd, h])
      · exact .inl (by simp only [hd]; rfl)
    case detector hs =>
      cases hs
      case exits hp _ =>
        obtain hp | hp := hp
        all_goals rw [hp] at h; cases h
      all_goals rw [‹s.detector.phase = _›] at h; cases h
    case owner hs | capture hs | control hs => cases hs <;> exact .inl h
    all_goals exact .inl h
  case control =>
    rw [State.isAtRest] at h ⊢
    cases hs
    case starts => exact .inr rfl
    case spawnFails => exact .inl (by simp only [phase_withdraw])
    case control hs => cases hs <;> rw [‹s.control.phase = _›] at h <;> cases h
    case owner hs | capture hs | detector hs => cases hs <;> exact .inl h
    all_goals exact .inl h

-- Nobody but the control thread leaves a device in a slot.
theorem Step.slot (hs : s.Step t) (hc : s.isAtRest .control = true)
    (h : s.handoff.get c = none) : t.handoff.get c = none := by
  have hset (d : Camera) : (s.handoff.set d none).get c = none := by
    by_cases hd : c = d
    case pos => exact hd ▸ PerCamera.get_set_self ..
    case neg => exact (PerCamera.get_set_of_ne _ hd _).trans h
  cases hs
  case capture hs =>
    cases hs
    case takes | replaces => exact hset _
    all_goals exact h
  case owner hs =>
    cases hs
    case takes => exact hset _
    all_goals exact h
  case control hs =>
    rw [State.isAtRest] at hc
    cases hs <;> rw [‹s.control.phase = _›] at hc <;> cases hc
  case detector hs => cases hs <;> exact h
  all_goals exact h

end State

namespace OwnerPhase

-- The threads that may still be at work, as far as the owner knows.
def unjoined : OwnerPhase → List Thread
  | idle => []
  | joining left late _ => late ++ left
  | clearing _ late => late
  | close _ _ late => late
  | unclaim _ _ late => late
  | stopped late => late
  | _ => Thread.all

-- The cameras in whose slots the owner may still find a device.
def uncleared : OwnerPhase → List Camera
  | idle => []
  | clearing left _ => left
  | close _ left _ => left
  | unclaim _ left _ => left
  | stopped _ => []
  | _ => Camera.all

end OwnerPhase

namespace State

variable {s t u : State} {c : Camera} {e : Event} {thread : Thread} {clock : Clock}
         {signal : Signal} {jpeg : JpegDecoder} {config : Config} {frames : FrameChannel}
         {detections : DetectionChannel}

-- The threads that the owner has joined are at rest, and once the control thread is among them the
-- slots that he has cleared stay empty.
structure Closing (s : State) : Prop where
  joined  : ∀ thread ∉ s.owner.unjoined, s.isAtRest thread = true
  cleared : .control ∉ s.owner.unjoined → ∀ c ∉ s.owner.uncleared, s.handoff.get c = none

namespace Closing

theorem new : (State.new jpeg config frames detections).Closing where
  joined thread := by
    cases thread
    case capture c => cases c <;> exact fun _ => rfl
    all_goals exact fun _ => rfl
  cleared _ c := by cases c <;> exact fun _ => rfl

-- As long as he has joined none, there is nothing to say.
theorem unknown (ho : t.owner.unjoined = Thread.all) : t.Closing :=
  ⟨fun thread ht => absurd thread.mem_all (ho ▸ ht), fun ht => absurd (Thread.mem_all _) (ho ▸ ht)⟩

theorem congr (h : s.Closing) (hs : s.Step t) (ho : t.owner = s.owner := by rfl) : t.Closing := by
  by_cases hr : t.owner = .running
  case pos => exact .unknown (by rw [hr]; rfl)
  case neg =>
    refine ⟨fun thread ht => ?_, fun ht c hc => ?_⟩
    · exact (hs.isAtRest (h.joined thread (ho ▸ ht))).resolve_right hr
    · exact hs.slot (h.joined _ (ho ▸ ht)) (h.cleared (ho ▸ ht) c (ho ▸ hc))

theorem owner (h : s.Closing) (hs : s.OwnerStep t) : t.Closing := by
  have hj := h.joined
  have hc := h.cleared
  cases hs
  case raises => exact .unknown rfl
  case joins thread left late deadline ho he =>
    rw [ho] at hj
    refine ⟨fun other hn => ?_, fun _ c hn => absurd c.mem_all hn⟩
    by_cases heq : other = thread
    case pos => exact heq ▸ isAtRest_of_hasExited he
    case neg => exact hj other (by simpa [OwnerPhase.unjoined, heq] using hn)
  case abandons ho =>
    rw [ho] at hj
    refine ⟨fun other hn => hj other ?_, fun _ c hn => absurd c.mem_all hn⟩
    simpa [OwnerPhase.unjoined, or_assoc] using hn
  case joined ho =>
    rw [ho] at hj
    refine ⟨fun other hn => hj other ?_, fun _ c hn => absurd c.mem_all hn⟩
    simpa [OwnerPhase.unjoined] using hn
  -- The owner clears the slots one by one.
  case passes c left late ho hn =>
    rw [ho] at hj hc
    refine ⟨hj, fun ht d hd => ?_⟩
    by_cases heq : d = c
    case pos => exact heq ▸ hn
    case neg => exact hc ht d (List.not_mem_cons_of_ne_of_not_mem heq hd)
  case takes c left late _ ho _ =>
    rw [ho] at hj hc
    refine ⟨hj, fun ht d hd => ?_⟩
    by_cases heq : d = c
    case pos => exact heq ▸ PerCamera.get_set_self ..
    case neg =>
      have hn := List.not_mem_cons_of_ne_of_not_mem heq hd
      exact (PerCamera.get_set_of_ne _ heq _).trans (hc ht d hn)
  case closes ho | unclaims ho | ends ho =>
    rw [ho] at hj hc
    exact ⟨hj, hc⟩

theorem step (h : s.Closing) (hs : s.Step t) : t.Closing := by
  have hk := hs
  cases hs
  case starts | beginsStop => exact .unknown rfl
  -- Those that were not started need not be joined.
  case spawnFails =>
    refine ⟨fun other hn => ?_, fun _ c hn => absurd c.mem_all hn⟩
    exact isAtRest_of_hasExited (hasExited_withdraw (Thread.mem_onward hn))
  case owner hs            => exact h.owner hs
  case capture hs | detector hs | control hs => cases hs <;> exact h.congr hk
  all_goals exact h.congr hk

end Closing

theorem closing_of_reachable
    (h : Reachable (.new jpeg config frames detections) s) : s.Closing := by
  induction h
  case start        => exact .new
  case step he ih => exact ih.step (step_cases he)

theorem captureStep_abandoned (hs : s.captureStep c clock signal = some t)
    (hn : signal ≠ .openLate) : t.devices.abandoned = s.devices.abandoned := by
  by_cases ho : ∃ h, (s.captures.get c).phase = .opening h
  case pos =>
    have ⟨h, hp⟩ := ho
    cases signal <;> simp only [captureStep, hp, reduceCtorEq] at hs
    case openLate => exact absurd rfl hn
    all_goals cases hs; rfl
  case neg =>
    cases captureStep_cases hs
    case late hp => exact absurd ⟨_, hp⟩ ho
    all_goals rfl

theorem controlStep_abandoned (hs : s.controlStep clock signal = some t)
    (hn : signal ≠ .openLate) : t.devices.abandoned = s.devices.abandoned := by
  cases ho : s.control.phase.opening?
  case none =>
    cases controlStep_cases hs
    case probeLate hp | late hp => rw [hp] at ho; cases ho
    all_goals rfl
  case some h =>
    cases hp : s.control.phase
    case probeOpening | opening =>
      cases signal <;> simp [controlStep, probeStep, switchStep, idleStep, hp] at hs
      case openLate => exact absurd rfl hn
      all_goals cases hs; rfl
    all_goals rw [hp] at ho; cases ho

-- No open is given up.
theorem abandoned_of_step (he : s.step e = some t) (hn : e.action.opensLate = false) :
    t.devices.abandoned.length ≤ s.devices.abandoned.length := by
  obtain ⟨clock, action⟩ := e
  cases action
  case thread thread signal =>
    have hl : signal ≠ .openLate := by
      rintro rfl
      cases hn
    cases thread
    case capture c => exact Nat.le_of_eq (congrArg _ (captureStep_abandoned he hl))
    case control   => exact Nat.le_of_eq (congrArg _ (controlStep_abandoned he hl))
    case detector  => cases detectorStep_cases he <;> exact Nat.le_refl _
  case owner => cases ownerStep_cases he <;> exact Nat.le_refl _
  case start | beginStop | request =>
    simp only [step, start, beginStop, request] at he
    split at he <;> cases he
    exact Nat.le_refl _
  case spawnFails =>
    obtain ⟨_, _, rfl⟩ := spawnFails_eq he
    exact Nat.le_refl _
  case command =>
    obtain ⟨_, rfl⟩ := command_eq he
    exact Nat.le_refl _
  case readFrame | readDetection =>
    cases he
    exact Nat.le_refl _
  case arriveLate | refuseLate | closeStray =>
    obtain ⟨_, hd, rfl⟩ := Option.map_eq_some_iff.mp he
    simp only [Devices.arriveLate?, Devices.refuseLate?, Devices.closeStray?] at hd
    split at hd <;> cases hd
    first | exact List.length_erase_le | exact Nat.le_refl _

theorem late_of_step (hs : Reachable (.new jpeg config frames detections) s)
    (he : s.step e = some t) (hn : e.action.opensLate = false) (hl : s.devices.late c = []) :
    t.devices.late c = [] := by
  have hd := (step_cases he).deals (owned_of_reachable hs) (InStep.new.reachable hs)
    (tracked_of_reachable hs).1
  obtain hl | ⟨g, _, ht⟩ := hd.late hl
  · exact hl
  · have hk := abandoned_of_step he hn
    rw [ht] at hk
    exact absurd hk (Nat.not_succ_le_self _)

theorem late_of_run {events : List Event} (hs : Reachable (.new jpeg config frames detections) s)
    (ht : s.run events = some t) (hn : ∀ e ∈ events, e.action.opensLate = false)
    (hl : s.devices.late c = []) : t.devices.late c = [] := by
  induction events generalizing s
  case nil => cases ht; exact hl
  case cons e events ih =>
    have ⟨u, he, ht⟩ := run_cons ht
    have ⟨hne, hn⟩ := List.forall_mem_cons.mp hn
    exact ih (hs.step he) ht hn (late_of_step hs he hne hl)

structure Released (s : State) (c : Camera) : Prop where
  handles : s.devices.openHandles c = []
  claim   : s.claims.isClaimed c = false
  slot    : s.handoff.get c = none

-- The pipeline has not been started yet, or it was stopped and all threads ended in time.
def Over (s : State) : Prop := s.owner = .idle ∨ s.owner = .stopped []

namespace Over

theorem isAtRest (h : s.Over) (hs : Reachable (.new jpeg config frames detections) s)
    (thread : Thread) : s.isAtRest thread = true := by
  refine (closing_of_reachable hs).joined thread ?_
  obtain ho | ho := h <;> rw [ho] <;> exact List.not_mem_nil

theorem slot (h : s.Over) (hs : Reachable (.new jpeg config frames detections) s) (c : Camera) :
    s.handoff.get c = none := by
  refine (closing_of_reachable hs).cleared ?_ c ?_
  all_goals obtain ho | ho := h <;> rw [ho] <;> exact List.not_mem_nil

theorem claimsIn (h : s.Over) (hs : Reachable (.new jpeg config frames detections) s)
    (place : Place) : s.claimsIn c place = 0 := by
  cases place
  case capture =>
    have hr := h.isAtRest hs (.capture c)
    have hl := settled_of_reachable hs c
    rw [State.isAtRest] at hr
    rw [State.claimsIn, CaptureThread.claims]
    cases hp : (s.captures.get c).phase <;> rw [hp] at hr <;> cases hr
    all_goals
      rw [hl false (by rw [hp]; rfl)]
      rfl
  case slot =>
    rw [State.claimsIn, h.slot hs c]
    obtain ho | ho := h <;> rw [ho] <;> rfl
  case control =>
    have hr := h.isAtRest hs .control
    rw [State.isAtRest] at hr
    rw [State.claimsIn]
    cases hp : s.control.phase <;> rw [hp] at hr <;> cases hr <;> rfl

-- Without a claim nobody uses a device.
theorem released (h : s.Over) (hs : Reachable (.new jpeg config frames detections) s)
    (hl : s.devices.late c = []) : s.Released c := by
  have ho := owned_of_reachable hs
  have hu : s.uses c = [] := List.flatMap_eq_nil_iff.mpr fun place _ =>
    List.length_eq_zero_iff.mp (Nat.le_zero.mp (h.claimsIn hs place ▸ s.length_usesIn c place))
  have hi : s.devices.inUse c = [] := by
    have hp := inUse_perm ho (accounted_of_reachable hs) c
    rw [hu, hl] at hp
    exact hp.eq_nil
  refine ⟨?_, ?_, h.slot hs c⟩
  · rw [Devices.inUse, List.append_assoc, List.filter_append] at hi
    exact (List.append_eq_nil_iff.mp hi).2
  · have hn := (ho.custody c).counted
    rw [length_holders, h.claimsIn hs, h.claimsIn hs, h.claimsIn hs] at hn
    cases hc : s.claims.isClaimed c
    case false => rfl
    case true  => rw [hc] at hn; cases hn

theorem opening (h : s.Over) (hs : Reachable (.new jpeg config frames detections) s) :
    s.opening = [] := by
  refine List.eq_nil_iff_forall_not_mem.mpr fun g hg => ?_
  have hm : g ∈ (s.opening ++ s.opened).filter fun h => h.camera = g.camera :=
    List.mem_filter.mpr ⟨List.mem_append_left _ hg, decide_eq_true rfl⟩
  have ⟨place, hp⟩ := mem_uses.mp ((uses_perm (owned_of_reachable hs) g.camera).mem_iff.mp hm)
  have hl := s.length_usesIn g.camera place
  rw [h.claimsIn hs] at hl
  exact List.not_mem_nil (List.length_eq_zero_iff.mp (Nat.le_zero.mp hl) ▸ hp)

end Over

-- A pipeline that was stopped is never started again.
theorem Step.stopped {late : List Thread} (hs : s.Step t) (h : s.owner = .stopped late) :
    t.owner = .stopped late := by
  cases hs
  case owner hs => cases hs <;> cases h.symm.trans ‹s.owner = _›
  case starts ho | beginsStop ho => cases h.symm.trans ho
  case spawnFails ho _           => cases h.symm.trans ho
  case capture hs | detector hs | control hs => cases hs <;> exact h
  all_goals exact h

theorem stays_released (hs : Reachable (.new jpeg config frames detections) s)
    (ho : s.owner = .stopped []) (hl : ∀ c, s.devices.late c = []) (ht : Reachable s t) :
    ∀ c, t.Released c := by
  have h : Reachable (.new jpeg config frames detections) t ∧ t.owner = .stopped [] ∧
      ∀ c, t.devices.late c = [] := by
    induction ht
    case start => exact ⟨hs, ho, hl⟩
    case step he ih =>
      have ⟨hr, ho, hl⟩ := ih
      have hd := (step_cases he).deals (owned_of_reachable hr) (InStep.new.reachable hr)
        (tracked_of_reachable hr).1
      refine ⟨hr.step he, (step_cases he).stopped ho, fun c => ?_⟩
      refine (hd.late (hl c)).resolve_right fun ⟨g, hg, _⟩ => ?_
      rw [Over.opening (.inr ho) hr] at hg
      cases hg
  exact fun c => Over.released (.inr h.2.1) h.1 (h.2.2 c)

-- It does not matter why it was stopped, by a call or because a thread could not be started.
theorem stopped_releases {events : List Event}
    (hs : (State.new jpeg config frames detections).run events = some s)
    (ho : s.owner = .stopped []) (hl : ∀ e ∈ events, e.action.opensLate = false)
    (ht : Reachable s t) : ∀ c, t.Released c :=
  stays_released (.run .start hs) ho (fun _ => late_of_run .start hs hl (by rfl)) ht

-- A call stops the pipeline if it runs, and otherwise changes nothing.
theorem shutDown_cases {late : List Thread} {meanwhile : List Event}
    (h : s.shutDown clock meanwhile = some (late, t)) :
    (t = s ∧ (s.owner = .idle ∨ ∃ before, s.owner = .stopped before)) ∨
    (s.run (⟨clock, .beginStop⟩ :: meanwhile) = some t ∧ t.owner = .stopped late ∧
      s.owner = .running) := by
  unfold shutDown at h
  split at h
  case h_1 ho => cases h; exact .inl ⟨rfl, .inl ho⟩
  case h_2 ho => cases h; exact .inl ⟨rfl, .inr ⟨_, ho⟩⟩
  case h_3 ho =>
    have ⟨u, hu, h⟩ := Option.bind_eq_some_iff.mp h
    have ⟨l, hl, h⟩ := Option.bind_eq_some_iff.mp h
    cases h
    refine .inr ⟨hu, ?_, ho⟩
    unfold stopped? at hl
    split at hl
    case h_1 hs => cases hl; exact hs
    case h_2    => cases hl
  case h_4 => cases h

-- Whatever the threads were doing when the call came: if it reports that all of them have ended,
-- and no call before it has reported otherwise, nothing of the devices is left, and nothing comes
-- after.
theorem clean_shutdown_releases {before meanwhile : List Event}
    (hs : (State.new jpeg config frames detections).run before = some s)
    (hn : ∀ late, s.stopped? = some late → late = [])
    (ht : s.shutDown clock meanwhile = some ([], t))
    (hl : ∀ e ∈ before ++ meanwhile, e.action.opensLate = false) :
    (∀ c, t.Released c) ∧
    (s.owner ≠ .idle → ∀ u, Reachable t u → ∀ c, u.Released c) := by
  have ⟨hb, hm⟩ := List.forall_mem_append.mp hl
  obtain ⟨rfl, ho | ⟨late, ho⟩⟩ | ⟨hrun, ho, _⟩ := shutDown_cases ht
  · refine ⟨fun c => Over.released (.inl ho) (.run .start hs) ?_, fun hi => absurd ho hi⟩
    exact late_of_run .start hs hb (by rfl)
  · obtain rfl := hn late (by rw [stopped?, ho])
    exact ⟨stopped_releases hs ho hb .start, fun _ _ hu => stopped_releases hs ho hb hu⟩
  · have hstays {u : State} (hu : Reachable t u) : ∀ c, u.Released c :=
      stopped_releases (run_append hs hrun) ho
        (List.forall_mem_append.mpr ⟨hb, List.forall_mem_cons.mpr ⟨rfl, hm⟩⟩) hu
    exact ⟨hstays .start, fun _ _ hu => hstays hu⟩

-- The call comes while a switch opens the night camera. The switch is carried out, although nobody
-- is left to take the device over.
def whileOpening : List Event × List Event :=
  let event (action : Action) : Event := ⟨⟨.start, ⟨0⟩⟩, action⟩
  let control (signal : Signal) := event (.thread .control signal)
  let go (thread : Thread) := event (.thread thread .go)
  ([event .start, event (.command ⟨.manual, some .night, none⟩), event .request]
      ++ List.replicate 5 (go .control) ++ [control (.refused (.reading "busy"))]
      ++ List.replicate 7 (go .control),
    [event (.owner .go), go (.capture .day), go (.capture .night), go .detector, control .opened]
      ++ List.replicate 5 (go .control) ++ List.replicate 10 (event (.owner .go)))

theorem clean_shutdown_releases_while_opening : ∃ s t,
    (State.new .blind {} (.inProcess none) (.inProcess none)).run whileOpening.1 = some s ∧
    s.devices.opening = [⟨1, .night⟩] ∧ s.claims.isClaimed .night = true ∧
    s.shutDown ⟨.start, ⟨0⟩⟩ whileOpening.2 = some ([], t) ∧ t.gate.active = .night ∧
    ∀ c, t.Released c := by
  have hr : ((State.new .blind {} (.inProcess none) (.inProcess none)).run
      whileOpening.1).bind (fun s => (s.shutDown ⟨.start, ⟨0⟩⟩ whileOpening.2).map fun (late, t) =>
        (s.devices.opening, s.claims.isClaimed .night, s.stopped?, late, t.gate.active)) =
      some ([⟨1, .night⟩], true, none, [], .night) := by
    rfl
  have ⟨s, hs, hr⟩ := Option.bind_eq_some_iff.mp hr
  have ⟨⟨late, t⟩, ht, hr⟩ := Option.map_eq_some_iff.mp hr
  simp only [Prod.mk.injEq] at hr
  obtain ⟨ho, hc, hn, rfl, hg⟩ := hr
  have ⟨hreleased, _⟩ := clean_shutdown_releases hs (by rw [hn]; nofun) ht (by decide)
  exact ⟨s, t, hs, ho, hc, ht, hg, hreleased⟩

-- The first call comes while the day camera's thread waits for an image, and leaves it to itself.
-- The second has nothing to report, but the thread still waits.
def whileReading : List Event × List Event :=
  let event (action : Action) : Event := ⟨⟨.start, ⟨0⟩⟩, action⟩
  let go (thread : Thread) := event (.thread thread .go)
  ([event .start] ++ List.replicate 4 (go (.capture .day))
      ++ [event (.thread (.capture .day) .opened)],
    [event (.owner .go), event (.owner .timeUp), go (.capture .night), go .detector, go .control,
      go .control] ++ List.replicate 7 (event (.owner .go)))

theorem not_every_clean_shutdown_releases : ¬ ∀ (jpeg : JpegDecoder) (config : Config)
    (frames : FrameChannel) (detections : DetectionChannel) (before meanwhile : List Event)
    (clock : Clock) (s t : State)
    (c : Camera), config.validate = .ok () →
    (State.new jpeg config frames detections).run before = some s →
    s.shutDown clock meanwhile = some ([], t) →
    (∀ e ∈ before ++ meanwhile, e.action.opensLate = false) → t.Released c := by
  intro h
  let clock : Clock := ⟨.start, ⟨0⟩⟩
  have hr : ((State.new .blind {} (.inProcess none) (.inProcess none)).run
      (whileReading.1 ++ ⟨clock, .beginStop⟩ :: whileReading.2)).bind (fun s =>
      (s.shutDown clock []).map fun (late, t) =>
        (s.stopped?, late, t.devices.openHandles .day)) =
      some (some [.capture .day], [], [⟨0, .day⟩]) := by
    rfl
  have ⟨s, hs, hr⟩ := Option.bind_eq_some_iff.mp hr
  have ⟨⟨late, t⟩, ht, hr⟩ := Option.map_eq_some_iff.mp hr
  simp only [Prod.mk.injEq] at hr
  obtain ⟨_, rfl, ho⟩ := hr
  have hn := (h .blind {} _ _ _ [] clock s t .day rfl hs ht (by decide)).handles
  cases ho.symm.trans hn

end State

end Pipeline

end DayNight
