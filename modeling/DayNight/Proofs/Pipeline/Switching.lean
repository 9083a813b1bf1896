import DayNight.Proofs.Pipeline.Capture

namespace DayNight.Pipeline

namespace ControlPhase

-- The switch that the control thread has in hand.
def switch? : ControlPhase → Option Switch
  | execute w => some w
  | checkPending w => some w
  | claim w _ => some w
  | claimWait w _ => some w
  | opening w _ _ => some w
  | unclaim w _ => some w
  | reportFailure w _ => some w
  | complete w _ => some w
  | moveGate w _ => some w
  | deposit w _ => some w
  | closeStale w _ => some w
  | unclaimStale w _ => some w
  | unlock w => some w
  | discard w _ => some w
  | unclaimDiscarded w _ => some w
  | _ => none

-- A switch that the controller has accepted, while the control thread still keeps the controller.
def committed? : ControlPhase → Option Switch
  | moveGate w _ => some w
  | deposit w _ => some w
  | closeStale w _ => some w
  | unclaimStale w _ => some w
  | unlock w => some w
  | _ => none

-- Such a switch before the gate has moved.
def moving? : ControlPhase → Option Switch
  | moveGate w _ => some w
  | _ => none

-- A switch and the device that is being opened for it or was opened for it, until it is left to the
-- target's thread.
def lease? : ControlPhase → Option (Switch × Handle)
  | opening w h _ => some (w, h)
  | complete w h => some (w, h)
  | moveGate w h => some (w, h)
  | deposit w h => some (w, h)
  | discard w h => some (w, h)
  | _ => none

theorem committed_of_moving {phase : ControlPhase} {w : Switch} (h : phase.moving? = some w) :
    phase.committed? = some w := by
  cases phase
  case moveGate => exact h
  all_goals cases h

theorem switch_next (next : AfterSwitch) : next.phase.switch? = none := by
  cases next <;> rfl

theorem committed_next (next : AfterSwitch) : next.phase.committed? = none := by
  cases next <;> rfl

theorem moving_next (next : AfterSwitch) : next.phase.moving? = none := by
  cases next <;> rfl

theorem lease_next (next : AfterSwitch) : next.phase.lease? = none := by
  cases next <;> rfl

end ControlPhase

namespace Devices

variable {d e d' : Devices} {p : Prop} [Decidable p]

-- Opens that nobody waits for come to their end one by one, and begin no new one.
theorem nextId_of_guard (h : (if p then some e else none) = some d') (he : e.nextId = d.nextId) :
    d'.nextId = d.nextId := by
  split at h
  case isTrue  => exact Option.some.inj h ▸ he
  case isFalse => cases h

end Devices

namespace State

variable {s t : State} {clock : Clock} {signal : Signal} {transition : Transition}

-- A transition that is on its way to the control thread, or in its hands.
def Carries (s : State) (transition : Transition) : Prop :=
  s.lock = some (.caller transition) ∨ transition ∈ s.requests ∨
  (∃ c, (s.captures.get c).asked? = some transition) ∨
  (∃ w, s.control.phase.switch? = some w ∧ w.transition = transition)

-- A step that neither accepts a switch nor carries out one that was accepted.
structure Steady (s t : State) : Prop where
  active     : t.gate.active = s.gate.active
  locked     : t.lock = some .control ↔ s.lock = some .control
  committed  : t.control.phase.committed? = s.control.phase.committed?
  moving     : t.control.phase.moving? = s.control.phase.moving?
  controller : t.controller.active = s.controller.active
  later      : s.controller.Later t.controller
  held       : s.lock = some .control → t.controller = s.controller
  handoff    : ∀ c h, t.handoff.get c = some h → s.handoff.get c = some h
  nextId     : s.devices.nextId ≤ t.devices.nextId
  lease      : ∀ w h, t.control.phase.lease? = some (w, h) → s.control.phase.lease? = some (w, h) ∨
    (s.devices.nextId ≤ h.id ∧ h.id < t.devices.nextId)
  carries    : ∀ transition, t.Carries transition → s.Carries transition ∨
    t.controller.pending = some transition
  idle       : t.owner = .idle → s.owner = .idle ∧
    (s.control.phase = .notStarted → t.control.phase = .notStarted)

-- The slot of one camera was emptied.
theorem handoff_of_set_none {handoff : PerCamera (Option Handle)} {c d : Camera} {h : Handle}
    (hd : (handoff.set c none).get d = some h) : handoff.get d = some h := by
  cases c <;> cases d <;> simp_all [PerCamera.set, PerCamera.get]

-- Steps of others than the control thread.
theorem steady_of_same (ht : ∀ transition, t.Carries transition → s.Carries transition)
    (hh : ∀ c h, t.handoff.get c = some h → s.handoff.get c = some h := by exact fun _ _ h => h)
    (hn : s.devices.nextId ≤ t.devices.nextId := by exact Nat.le_refl _)
    (hg : t.gate.active = s.gate.active := by rfl)
    (ho : t.owner = .idle → s.owner = .idle := by exact fun h => h)
    (hl : t.lock = some .control ↔ s.lock = some .control := by exact Iff.rfl)
    (hp : t.control.phase = s.control.phase := by rfl)
    (hc : t.controller = s.controller := by rfl) : s.Steady t where
  active     := hg
  locked     := hl
  committed  := by rw [hp]
  moving     := by rw [hp]
  controller := by rw [hc]
  later      := hc ▸ .refl
  held       := fun _ => hc
  handoff    := hh
  nextId     := hn
  lease      := fun _ _ h => .inl (hp ▸ h)
  carries    := fun transition h => .inl (ht transition h)
  idle       := fun h => ⟨ho h, hp.trans⟩

-- Steps of others than the control thread on the controller, which nobody holds.
theorem steady_of_free (hl : s.lock = none) (ha : t.controller.active = s.controller.active)
    (hc : s.controller.Later t.controller)
    (ht : ∀ transition, t.Carries transition → s.Carries transition ∨
      t.controller.pending = some transition)
    (hn : t.lock ≠ some .control)
    (hp : t.control.phase = s.control.phase := by rfl)
    (hg : t.gate.active = s.gate.active := by rfl)
    (hh : t.handoff = s.handoff := by rfl) (hd : t.devices = s.devices := by rfl)
    (ho : t.owner = s.owner := by rfl) : s.Steady t where
  active     := hg
  locked     := by simp [hl, hn]
  committed  := by rw [hp]
  moving     := by rw [hp]
  controller := ha
  later      := hc
  held       := by simp [hl]
  handoff    := fun _ _ h => hh ▸ h
  nextId     := Nat.le_of_eq (by rw [hd])
  lease      := fun _ _ h => .inl (hp ▸ h)
  carries    := ht
  idle       := fun h => ⟨ho.symm.trans h, hp.trans⟩

-- A capture thread has gone on.
theorem carries_of_setCapture {c : Camera} {own : CaptureThread}
    (h : (s.setCapture c own).Carries transition) :
    s.Carries transition ∨ own.asked? = some transition := by
  obtain h | h | ⟨d, h⟩ | h := h
  · exact .inl (.inl h)
  · exact .inl (.inr (.inl h))
  · by_cases hd : d = c
    case pos =>
      subst hd
      exact .inr (by simpa [setCapture] using h)
    case neg =>
      rw [setCapture, PerCamera.get_set_of_ne _ hd] at h
      exact .inl (.inr (.inr (.inl ⟨d, h⟩)))
  · exact .inl (.inr (.inr (.inr h)))

theorem carries_of_quiet {c : Camera} {own : CaptureThread} (hq : own.asked? = none)
    (h : (s.setCapture c own).Carries transition) : s.Carries transition := by
  cases carries_of_setCapture h
  case inl h => exact h
  case inr h => simp [hq] at h

theorem CaptureEffect.steady {c : Camera} (h : s.CaptureEffect c t) : s.Steady t := by
  cases h
  case alone hq      => exact steady_of_same fun _ => carries_of_quiet hq
  case takes hq      =>
    exact steady_of_same (fun _ => carries_of_quiet hq) fun _ _ => handoff_of_set_none
  case claims hq _   =>
    exact steady_of_same (fun _ => carries_of_quiet hq) (fun _ _ h => h) (Nat.le_succ _)
  case devices hq hn =>
    exact steady_of_same (fun _ => carries_of_quiet hq) (fun _ _ h => h) (Nat.le_of_eq hn.symm)
  case unclaims hq   => exact steady_of_same fun _ => carries_of_quiet hq
  case offers hq hg  =>
    exact steady_of_same (fun _ => carries_of_quiet hq) (fun _ _ h => h) (Nat.le_refl _) hg
  case reports hq hl =>
    exact steady_of_free hl (Controller.setCaptureDegraded_active ..)
      (Controller.later_setCaptureDegraded ..) (fun _ h => .inl (carries_of_quiet hq h))
      fun h => nomatch hl.symm.trans h
  case samples hq hl ha =>
    refine steady_of_free hl ha.active ha.later (fun _ h => ?_) fun h => nomatch hl.symm.trans h
    cases carries_of_setCapture h
    case inl h => exact .inl h
    case inr h =>
      obtain rfl := hq.symm.trans h
      exact .inr ha.pending
  case asks transition hq ha =>
    refine steady_of_same fun _ h => ?_
    obtain h | h | h | h := carries_of_quiet hq h
    · exact .inl h
    · obtain h | h := List.mem_append.mp h
      · exact .inr (.inl h)
      · obtain rfl := List.mem_singleton.mp h
        exact .inr (.inr (.inl ⟨c, ha⟩))
    · exact .inr (.inr (.inl h))
    · exact .inr (.inr (.inr h))

theorem DetectorStep.steady (h : s.DetectorStep clock t) : s.Steady t := by
  cases h
  all_goals exact steady_of_same fun _ h => h

-- Steps of the owner, which has started the pipeline.
theorem steady_of_owner (ho : t.owner ≠ .idle)
    (hh : ∀ c h, t.handoff.get c = some h → s.handoff.get c = some h := by exact fun _ _ h => h)
    (ht : ∀ transition, t.Carries transition → s.Carries transition := by exact fun _ h => h)
    (hn : s.devices.nextId ≤ t.devices.nextId := by exact Nat.le_refl _)
    (hg : t.gate.active = s.gate.active := by rfl)
    (hl : t.lock = some .control ↔ s.lock = some .control := by exact Iff.rfl)
    (hp : t.control.phase = s.control.phase := by rfl)
    (hc : t.controller = s.controller := by rfl) : s.Steady t :=
  steady_of_same ht hh hn hg (fun h => absurd h ho) hl hp hc

theorem OwnerStep.steady (h : s.OwnerStep t) : s.Steady t := by
  cases h
  case takes => exact steady_of_owner nofun fun _ _ => handoff_of_set_none
  all_goals exact steady_of_owner nofun

theorem command_steady {command : SwitchCommand} {now : Moment}
    (h : (s.command command now).map (·.2) = some t) : s.Steady t := by
  obtain ⟨hl, rfl⟩ := command_eq h
  have ha := s.controller.asks_command command now
  refine steady_of_free hl ha.active ha.later (fun _ h => ?_) fun h => ?_
  · obtain h | h := h
    · obtain ⟨_, hw, ⟨⟩⟩ := Option.map_eq_some_iff.mp h
      rw [hw] at ha
      exact .inr ha.pending
    · exact .inl (.inr h)
  · obtain ⟨_, _, ⟨⟩⟩ := Option.map_eq_some_iff.mp h

theorem request_steady (h : s.request = some t) : s.Steady t := by
  unfold request at h
  split at h
  case h_1 transition hl =>
    cases h
    refine steady_of_same (fun _ h => ?_) (fun _ _ h => h) (Nat.le_refl _) rfl (fun h => h)
      (by simp [hl])
    obtain h | h | h := h
    · cases h
    · obtain h | h := List.mem_append.mp h
      · exact .inr (.inl h)
      · obtain rfl := List.mem_singleton.mp h
        exact .inl hl
    · exact .inr (.inr h)
  case h_2 => cases h

-- Steps of the control thread that leave the controller alone.
theorem steady_of_control {p : ControlPhase} (hp : s.control.phase = p)
    (hw : ∀ w, t.control.phase.switch? = some w → s.Carries w.transition := by nofun)
    (he : ∀ w h, t.control.phase.lease? = some (w, h) → p.lease? = some (w, h) ∨
      (s.devices.nextId ≤ h.id ∧ h.id < t.devices.nextId) := by nofun)
    (hn : s.devices.nextId ≤ t.devices.nextId := by exact Nat.le_refl _)
    (hr : ∀ transition ∈ t.requests, transition ∈ s.requests := by exact fun _ h => h)
    (hm : t.control.phase.moving? = p.moving? := by rfl)
    (hc : t.control.phase.committed? = p.committed? := by rfl)
    (hx : ∀ c transition, (t.captures.get c).asked? = some transition →
      (s.captures.get c).asked? = some transition := by exact fun _ _ h => h)
    (ho : t.owner = .idle → s.owner = .idle ∧ p ≠ .notStarted := by exact fun h => ⟨h, nofun⟩)
    (hh : t.handoff = s.handoff := by rfl) (hl : t.lock = s.lock := by rfl)
    (hg : t.gate.active = s.gate.active := by rfl)
    (hd : t.controller = s.controller := by rfl) : s.Steady t where
  active     := hg
  locked     := by rw [hl]
  committed  := hp ▸ hc
  moving     := hp ▸ hm
  controller := by rw [hd]
  later      := hd ▸ .refl
  held       := fun _ => hd
  handoff    := fun _ _ h => hh ▸ h
  nextId     := hn
  lease      := hp ▸ he
  carries    := by
    intro transition h
    obtain h | h | ⟨c, h⟩ | ⟨w, h, rfl⟩ := h
    · exact .inl (.inl (hl ▸ h))
    · exact .inl (.inr (.inl (hr _ h)))
    · exact .inl (.inr (.inr (.inl ⟨c, hx c _ h⟩)))
    · exact .inl (hw w h)
  idle       := fun h => ⟨(ho h).1, fun hs => absurd (hp.symm.trans hs) (ho h).2⟩

-- The control thread keeps the switch in hand.
theorem steady_of_keep {p : ControlPhase} {w : Switch} (hp : s.control.phase = p)
    (hs : p.switch? = some w := by rfl) (ht : t.control.phase.switch? = some w := by rfl)
    (he : ∀ w h, t.control.phase.lease? = some (w, h) → p.lease? = some (w, h) ∨
      (s.devices.nextId ≤ h.id ∧ h.id < t.devices.nextId) := by nofun)
    (hn : s.devices.nextId ≤ t.devices.nextId := by exact Nat.le_refl _)
    (hm : t.control.phase.moving? = p.moving? := by rfl)
    (hc : t.control.phase.committed? = p.committed? := by rfl)
    (hr : t.requests = s.requests := by rfl) (hx : t.captures = s.captures := by rfl)
    (ho : t.owner = s.owner := by rfl) (hh : t.handoff = s.handoff := by rfl)
    (hl : t.lock = s.lock := by rfl) (hg : t.gate.active = s.gate.active := by rfl)
    (hd : t.controller = s.controller := by rfl) : s.Steady t := by
  refine steady_of_control hp ?_ he hn (fun _ h => hr ▸ h) hm hc (fun _ _ h => hx ▸ h)
    (fun h => ⟨ho.symm.trans h, by rintro rfl; cases hs⟩) hh hl hg hd
  intro v hv
  obtain rfl := Option.some.inj (ht.symm.trans hv)
  exact .inr (.inr (.inr ⟨w, hp ▸ hs, rfl⟩))

-- The control thread is done with a switch that was not accepted.
theorem steady_of_done {p : ControlPhase} {w : Switch} (hp : s.control.phase = p)
    (hz : p ≠ .notStarted := by nofun)
    (hm : p.moving? = none := by rfl) (hc : p.committed? = none := by rfl)
    (ht : t.control.phase = w.done := by rfl) (hn : t.devices = s.devices := by rfl)
    (hr : t.requests = s.requests := by rfl) (hx : t.captures = s.captures := by rfl)
    (ho : t.owner = s.owner := by rfl) (hh : t.handoff = s.handoff := by rfl)
    (hl : t.lock = s.lock := by rfl) (hg : t.gate.active = s.gate.active := by rfl)
    (hd : t.controller = s.controller := by rfl) : s.Steady t := by
  have hw : w.done.switch? = none := ControlPhase.switch_next w.next
  have he : w.done.lease? = none := ControlPhase.lease_next w.next
  have hv : w.done.moving? = none := ControlPhase.moving_next w.next
  have hk : w.done.committed? = none := ControlPhase.committed_next w.next
  rw [← ht] at hw he hv hk
  exact steady_of_control hp (fun _ h => nomatch hw.symm.trans h)
    (fun _ _ h => nomatch he.symm.trans h) (Nat.le_of_eq (by rw [hn])) (fun _ h => hr ▸ h)
    (hv.trans hm.symm) (hk.trans hc.symm) (fun _ _ h => hx ▸ h) (fun h => ⟨ho.symm.trans h, hz⟩)
    hh hl hg hd

-- Steps of the control thread on the controller, which nobody holds.
theorem steady_of_answer {p q : ControlPhase} {d : Controller} (hp : s.control.phase = p)
    (hl : s.lock = none) (ha : d.active = s.controller.active) (hd : s.controller.Later d)
    (hw : ∀ w, q.switch? = some w → d.pending = some w.transition)
    (he : q.lease? = none) (hn : q.moving? = none) (hc : q.committed? = none)
    (hm : p.moving? = none := by rfl) (hs : p.committed? = none := by rfl)
    (hz : p ≠ .notStarted := by nofun) : s.Steady ({ s with controller := d }.setControl q) where
  active     := rfl
  locked     := .rfl
  committed  := hp ▸ hc.trans hs.symm
  moving     := hp ▸ hn.trans hm.symm
  controller := ha
  later      := hd
  held       := by simp [hl]
  handoff    := fun _ _ h => h
  nextId     := Nat.le_refl _
  lease      := fun _ _ h => nomatch he.symm.trans h
  carries    := by
    intro transition h
    obtain h | h | h | ⟨w, h, rfl⟩ := h
    · exact .inl (.inl h)
    · exact .inl (.inr (.inl h))
    · exact .inl (.inr (.inr (.inl h)))
    · exact .inr (hw w h)
  idle       := fun h => ⟨h, fun hs => absurd (hp.symm.trans hs) hz⟩

theorem steady_of_next {p : ControlPhase} {d : Controller} (next : AfterSwitch)
    (hp : s.control.phase = p) (hl : s.lock = none) (ha : d.active = s.controller.active)
    (hd : s.controller.Later d) (hm : p.moving? = none := by rfl)
    (hs : p.committed? = none := by rfl) (hz : p ≠ .notStarted := by nofun) :
    s.Steady ({ s with controller := d }.setControl next.phase) :=
  steady_of_answer hp hl ha hd (fun _ h => nomatch (ControlPhase.switch_next next).symm.trans h)
    (ControlPhase.lease_next next) (ControlPhase.moving_next next)
    (ControlPhase.committed_next next) hm hs hz

theorem steady_of_switchOr {p : ControlPhase} {wanted : Option Transition} {d : Controller}
    {next : AfterSwitch} (hp : s.control.phase = p) (hl : s.lock = none)
    (ha : s.controller.Asks (wanted, d)) (hm : p.moving? = none := by rfl)
    (hs : p.committed? = none := by rfl) (hz : p ≠ .notStarted := by nofun) :
    s.Steady ({ s with controller := d }.setControl (switchOr wanted next)) := by
  cases wanted
  case none => exact steady_of_next next hp hl ha.active ha.later hm hs hz
  case some transition =>
    refine steady_of_answer hp hl ha.active ha.later ?_ rfl rfl rfl hm hs hz
    rintro _ ⟨⟩
    exact ha.pending

-- What any step of the pipeline comes to.
inductive Progress (s : State) : State → Prop
  | steady {t : State} : s.Steady t → Progress s t
  | accepts {w h} : s.control.phase = .complete w h → s.lock = none →
    s.controller.isPending w.transition →
    Progress s ({ s with
      controller := (s.controller.complete w.transition).2
      lock := some .control }.setControl (.moveGate w h))
  | moves {w h} : s.control.phase = .moveGate w h →
    Progress s ({ s with gate := s.gate.switchTo w.transition.target s.config.switcher.warmupFrames
      }.setControl (.deposit w h))
  | leaves {w h next} : s.control.phase = .deposit w h → next.committed? = some w →
    next.moving? = none → next.lease? = none → next.switch? = some w →
    Progress s ({ s with
      handoff := s.handoff.set w.transition.target (some h) }.setControl next)
  | unlocks {w} : s.control.phase = .unlock w →
    Progress s ({ s with lock := none }.setControl w.done)

theorem ControlStep.progress (h : s.ControlStep clock t) : s.Progress t := by
  cases h
  case starts hp | exits hp _ | begins hp _ | plans hp _ | rests hp _ | waits hp | wakes hp
      | chooses hp _ | passes hp _ | probeOpens hp | probeFails hp | probeLate hp | probeReads hp
      | probeCloses hp | probeMisses hp | probeSees hp =>
    exact .steady (steady_of_control hp)
  case receives hp hr =>
    refine .steady (steady_of_control hp ?_ nofun (Nat.le_refl _) fun _ h => hr ▸ .tail _ h)
    rintro _ ⟨⟩
    exact .inr (.inl (hr ▸ .head _))
  case retries hp hl =>
    have ha : s.controller.Asks (s.controller.poll clock.moment) :=
      Controller.asks_poll rfl rfl (.inl rfl)
    exact .steady (steady_of_switchOr hp hl ha)
  case samples hp hl =>
    exact .steady (steady_of_switchOr hp hl (Controller.asks_observe _))
  case probes hp _ => exact .steady (steady_of_control hp nofun nofun (Nat.le_succ _))
  case drops hp _ | skips hp _ _ | discardUnclaims hp => exact .steady (steady_of_done hp)
  case takesUp hp _ | follows hp _ _ | givesUp hp _ _ | pauses hp _ _ | stopsTrying hp _
      | triesAgain hp _ | fails hp | late hp | unclaims hp | staleCloses hp | staleUnclaims hp
      | discards hp =>
    exact .steady (steady_of_keep hp)
  case claims hp _ =>
    refine .steady (steady_of_keep hp rfl rfl ?_ (Nat.le_succ _))
    rintro _ _ ⟨⟩
    exact .inr ⟨Nat.le_refl _, Nat.lt_succ_self _⟩
  case opens hp | loses hp _ _ => exact .steady (steady_of_keep hp rfl rfl fun _ _ => .inl)
  case reports w e hp hl =>
    exact .steady
      (steady_of_next w.next hp hl (Controller.fail_active ..) (Controller.later_fail ..))
  case accepts hp hl hi => exact .accepts hp hl hi
  case moves hp         => exact .moves hp
  case leaves hp _      => exact .leaves hp rfl rfl rfl rfl
  case replaces hp _    => exact .leaves hp rfl rfl rfl rfl
  case unlocks hp       => exact .unlocks hp

theorem start_steady (hi : s.owner = .idle → s.control.phase = .notStarted)
    (h : s.start.toOption = some t) : s.Steady t := by
  unfold start at h
  split at h
  case h_1 ho =>
    cases h
    refine steady_of_control (hi ho) nofun nofun (Nat.le_refl _) (fun _ h => h) rfl rfl ?_ nofun
    intro c _ h
    cases c <;> cases h
  case h_2 => cases h

theorem spawnFails_steady {thread : Thread} {reason : String} {now : Moment}
    (h : (s.spawnFails thread reason now).map (·.2) = some t) : s.Steady t := by
  obtain ⟨_, hf, rfl⟩ := spawnFails_eq h
  have hp := phase_withdraw s thread
  refine steady_of_control (control_of_fresh hf) (fun w hw => ?_) (fun w h hl => ?_)
    (Nat.le_refl _) (fun _ h => h) ?_ ?_ (fun c transition ha => ?_) nofun
  · exact nomatch hp ▸ hw
  · exact nomatch hp ▸ hl
  · exact (congrArg ControlPhase.moving? hp).trans rfl
  · exact (congrArg ControlPhase.committed? hp).trans rfl
  · obtain hc | ⟨_, hc⟩ := withdraw_captures hf c
    · exact hc ▸ ha
    · exact nomatch hc ▸ ha

theorem steady_of_devices {devices : Devices} (h : devices.nextId = s.devices.nextId) :
    s.Steady { s with devices := devices } :=
  steady_of_same (fun _ h => h) (fun _ _ h => h) (Nat.le_of_eq h.symm)

theorem step_progress {e : Event} (hi : s.owner = .idle → s.control.phase = .notStarted)
    (h : s.step e = some t) : s.Progress t := by
  obtain ⟨clock, action⟩ := e
  cases action
  case start => exact .steady (start_steady hi h)
  case spawnFails => exact .steady (spawnFails_steady h)
  case beginStop =>
    refine .steady ?_
    simp only [step, beginStop] at h
    split at h
    case h_1 => cases h; exact steady_of_owner nofun
    case h_2 => cases h
  case owner => exact .steady (ownerStep_cases h).steady
  case thread thread signal =>
    cases thread
    case capture c => exact .steady (captureStep_cases h).effect.steady
    case detector  => exact .steady (detectorStep_cases h).steady
    case control   => exact (controlStep_cases h).progress
  case command => exact .steady (command_steady h)
  case request => exact .steady (request_steady h)
  case readFrame | readDetection =>
    cases h
    exact .steady (steady_of_same fun _ h => h)
  case arriveLate handle =>
    obtain ⟨devices, hd, rfl⟩ := Option.map_eq_some_iff.mp h
    exact .steady (steady_of_devices (Devices.nextId_of_guard hd rfl))
  case refuseLate handle =>
    obtain ⟨devices, hd, rfl⟩ := Option.map_eq_some_iff.mp h
    exact .steady (steady_of_devices (Devices.nextId_of_guard hd rfl))
  case closeStray handle =>
    obtain ⟨devices, hd, rfl⟩ := Option.map_eq_some_iff.mp h
    exact .steady (steady_of_devices (Devices.nextId_of_guard hd rfl))

end State

end DayNight.Pipeline
