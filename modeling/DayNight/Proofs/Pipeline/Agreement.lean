import DayNight.Proofs.Pipeline.Switching

namespace DayNight.Pipeline.State

variable {s t u : State} {transition : Transition} {handle : Handle}

-- What holds in every state that a pipeline can reach.
structure InStep (s : State) : Prop where
  idle    : s.owner = .idle → s.control.phase = .notStarted
  locked  : s.lock = some .control ↔ s.control.phase.committed?.isSome
  settled : s.control.phase.moving? = none → s.gate.active = s.controller.active
  moving  : ∀ w, s.control.phase.moving? = some w → s.controller.active = w.transition.target
  pending : ∀ transition, s.controller.pending = some transition → s.controller.Issued transition
  issued  : ∀ transition, s.Carries transition → s.controller.Issued transition
  handed  : ∀ c h, s.handoff.get c = some h → h.id < s.devices.nextId
  leased  : ∀ w h, s.control.phase.lease? = some (w, h) → h.id < s.devices.nextId ∧
    ∀ c, s.handoff.get c ≠ some h

-- One camera was left a device.
theorem handoff_of_set_some {handoff : PerCamera (Option Handle)} {c d : Camera} {other : Handle}
    (h : (handoff.set c (some handle)).get d = some other) :
    handoff.get d = some other ∨ (d = c ∧ other = handle) := by
  cases c <;> cases d <;> simp_all [PerCamera.set, PerCamera.get]

namespace InStep

theorem new {jpeg : JpegDecoder} {config : Config} {frames : FrameChannel}
    {detections : DetectionChannel} :
    InStep (.new jpeg config frames detections) where
  idle    := fun _ => rfl
  locked  := ⟨nofun, nofun⟩
  settled := fun _ => rfl
  moving  := nofun
  pending := nofun
  issued  := by
    intro transition h
    obtain h | h | ⟨c, h⟩ | ⟨w, h, _⟩ := h
    · cases h
    · cases h
    · cases c <;> cases h
    · cases h
  handed  := by intro c h hh; cases c <;> cases hh
  leased  := nofun

theorem steady (h : InStep s) (hs : s.Steady t) : InStep t where
  idle    := fun ho => (hs.idle ho).2 (h.idle (hs.idle ho).1)
  locked  := by rw [hs.locked, hs.committed, h.locked]
  settled := by
    intro hm
    rw [hs.active, hs.controller]
    exact h.settled (hs.moving ▸ hm)
  moving  := by
    intro w hm
    rw [hs.controller]
    exact h.moving w (hs.moving ▸ hm)
  pending := hs.later.issued_pending h.pending
  issued  := by
    intro transition hc
    cases hs.carries transition hc
    case inl hc => exact (h.issued transition hc).later hs.later
    case inr hp => exact hs.later.issued_pending h.pending transition hp
  handed  := fun c handle hh =>
    Nat.lt_of_lt_of_le (h.handed c handle (hs.handoff c handle hh)) hs.nextId
  leased  := by
    intro w handle hl
    cases hs.lease w handle hl
    case inl hl =>
      have ⟨hi, hn⟩ := h.leased w handle hl
      exact ⟨Nat.lt_of_lt_of_le hi hs.nextId, fun c hh => hn c (hs.handoff c handle hh)⟩
    case inr hl =>
      refine ⟨hl.2, fun c hh => ?_⟩
      exact Nat.not_lt.mpr hl.1 (h.handed c handle (hs.handoff c handle hh))

-- A switch that was accepted is carried by nobody else than before.
theorem issued_of_keep (h : InStep s) {w : Switch} {p : ControlPhase}
    (hp : s.control.phase = p) (ht : ∀ v, t.control.phase.switch? = some v → v = w)
    (hl : t.lock = s.lock ∨ t.lock = some .control ∨ t.lock = none)
    (hw : p.switch? = some w := by rfl) (hn : t.controller.nextId = s.controller.nextId := by rfl)
    (hr : t.requests = s.requests := by rfl) (hx : t.captures = s.captures := by rfl) :
    ∀ transition, t.Carries transition → t.controller.Issued transition := by
  intro transition hc
  rw [Controller.Issued, hn]
  refine h.issued transition ?_
  obtain hc | hc | hc | ⟨v, hv, hc⟩ := hc
  · obtain hl | hl | hl := hl
    · exact .inl (hl ▸ hc)
    · cases hl.symm.trans hc
    · cases hl.symm.trans hc
  · exact .inr (.inl (hr ▸ hc))
  · exact .inr (.inr (.inl (hx ▸ hc)))
  · exact .inr (.inr (.inr ⟨w, hp ▸ hw, ht v hv ▸ hc⟩))

theorem accepts (h : InStep s) {w : Switch} (hp : s.control.phase = .complete w handle)
    (hi : s.controller.isPending w.transition) : InStep ({ s with
      controller := (s.controller.complete w.transition).2
      lock := some .control }.setControl (.moveGate w handle)) := by
  rw [Controller.complete_of_pending hi]
  exact {
    idle    := fun ho => absurd (hp.symm.trans (h.idle ho)) nofun
    locked  := ⟨fun _ => rfl, fun _ => rfl⟩
    settled := nofun
    moving  := by rintro _ ⟨⟩; rfl
    pending := nofun
    issued  := h.issued_of_keep hp (by rintro _ ⟨⟩; rfl) (.inr (.inl rfl))
    handed  := h.handed
    leased  := by rintro _ _ ⟨⟩; exact h.leased w handle (hp ▸ rfl) }

theorem moves (h : InStep s) {w : Switch} (hp : s.control.phase = .moveGate w handle)
    (warmup : UInt32) : InStep ({ s with
      gate := s.gate.switchTo w.transition.target warmup }.setControl (.deposit w handle)) where
  idle    := fun ho => absurd (hp.symm.trans (h.idle ho)) nofun
  locked  := ⟨fun _ => rfl, fun _ => h.locked.mpr (hp ▸ rfl)⟩
  settled := fun _ => (h.moving w (hp ▸ rfl)).symm
  moving  := nofun
  pending := h.pending
  issued  := h.issued_of_keep hp (by rintro _ ⟨⟩; rfl) (.inl rfl)
  handed  := h.handed
  leased  := by rintro _ _ ⟨⟩; exact h.leased w handle (hp ▸ rfl)

theorem leaves (h : InStep s) {w : Switch} {next : ControlPhase}
    (hp : s.control.phase = .deposit w handle) (hc : next.committed? = some w)
    (hm : next.moving? = none) (hl : next.lease? = none) (hw : next.switch? = some w) :
    InStep ({ s with
      handoff := s.handoff.set w.transition.target (some handle) }.setControl next) where
  idle    := fun ho => absurd (hp.symm.trans (h.idle ho)) nofun
  locked  := ⟨fun _ => by simp [setControl, hc], fun _ => h.locked.mpr (hp ▸ rfl)⟩
  settled := fun _ => h.settled (hp ▸ rfl)
  moving  := fun _ hv => nomatch hm.symm.trans hv
  pending := h.pending
  issued  := h.issued_of_keep hp (fun v hv => Option.some.inj (hv.symm.trans hw))
    (.inl rfl)
  handed  := by
    intro c other hh
    obtain hh | ⟨_, rfl⟩ := handoff_of_set_some hh
    · exact h.handed c other hh
    · exact (h.leased w other (hp ▸ rfl)).1
  leased  := fun _ _ hv => nomatch hl.symm.trans hv

theorem unlocks (h : InStep s) {w : Switch} (hp : s.control.phase = .unlock w) :
    InStep ({ s with lock := none }.setControl w.done) := by
  have hm : w.done.moving? = none := ControlPhase.moving_next w.next
  have hc : w.done.committed? = none := ControlPhase.committed_next w.next
  have hl : w.done.lease? = none := ControlPhase.lease_next w.next
  have hw : w.done.switch? = none := ControlPhase.switch_next w.next
  exact {
    idle    := fun ho => absurd (hp.symm.trans (h.idle ho)) nofun
    locked  := by simp [setControl, hc]
    settled := fun _ => h.settled (hp ▸ rfl)
    moving  := fun _ hv => nomatch hm.symm.trans hv
    pending := h.pending
    issued  := h.issued_of_keep hp (fun _ hv => nomatch hw.symm.trans hv) (.inr (.inr rfl))
    handed  := h.handed
    leased  := fun _ _ hv => nomatch hl.symm.trans hv }

theorem progress (h : InStep s) (hp : s.Progress t) : InStep t := by
  cases hp
  case steady hs               => exact h.steady hs
  case accepts hp _ hi         => exact h.accepts hp hi
  case moves hp                => exact h.moves hp _
  case leaves hp hc hm hl hw   => exact h.leaves hp hc hm hl hw
  case unlocks hp              => exact h.unlocks hp

theorem step {e : Event} (h : InStep s) (hs : s.step e = some t) : InStep t :=
  h.progress (step_progress h.idle hs)

theorem agree (h : InStep s) (hl : s.lock ≠ some .control) :
    s.gate.active = s.controller.active := by
  refine h.settled ?_
  cases hm : s.control.phase.moving?
  case none => rfl
  case some w => exact absurd (h.locked.mpr (by rw [ControlPhase.committed_of_moving hm]; rfl)) hl

theorem reachable (h : InStep s) (hr : Reachable s t) : InStep t :=
  hr.induct h fun _ _ _ => InStep.step

end InStep

-- A transition that was asked for at some time but is neither pending nor being carried out.
structure Superseded (s : State) (transition : Transition) : Prop where
  issued     : s.controller.Issued transition
  notPending : ¬ s.controller.isPending transition
  notKept    : ∀ w, s.control.phase.committed? = some w → w.transition.id ≠ transition.id

theorem Superseded.progress (h : s.Superseded transition) (hp : s.Progress t) :
    t.Superseded transition := by
  cases hp
  case steady hs =>
    exact {
      issued     := h.issued.later hs.later
      notPending := hs.later.not_pending h.issued h.notPending
      notKept    := fun w hw => h.notKept w (hs.committed ▸ hw) }
  case accepts w handle _ _ hi =>
    have hl : s.controller.Later (s.controller.complete w.transition).2 :=
      Controller.later_complete _
    exact {
      issued     := h.issued.later hl
      notPending := hl.not_pending h.issued h.notPending
      notKept    := by
        rintro _ ⟨⟩ he
        -- The switch that is accepted was pending, and its number is its own.
        exact h.notPending (by rwa [Controller.isPending, he] at hi) }
  case moves w handle hp =>
    exact { h with notKept := by rintro _ ⟨⟩; exact h.notKept w (hp ▸ rfl) }
  case leaves w handle next hp hc _ _ _ =>
    refine { h with notKept := fun v hv => ?_ }
    obtain rfl := Option.some.inj (hc.symm.trans hv)
    exact h.notKept w (hp ▸ rfl)
  case unlocks w hp =>
    have hc : w.done.committed? = none := ControlPhase.committed_next w.next
    exact { h with notKept := fun _ hv => by cases hc.symm.trans hv }

theorem Superseded.reachable (h : s.Superseded transition) (hi : InStep s) (hr : Reachable s t) :
    t.Superseded transition := by
  induction hr
  case start => exact h
  case step hr he ih => exact ih.progress (step_progress (hi.reachable hr).idle he)

-- Transitions are known by their numbers.
theorem Superseded.of_id {other : Transition} (h : s.Superseded transition)
    (he : other.id = transition.id) : s.Superseded other where
  issued     := by rw [Controller.Issued, he]; exact h.issued
  notPending := by rw [Controller.isPending, he]; exact h.notPending
  notKept    := fun w hw => he ▸ h.notKept w hw

-- A device that no capture thread will ever be left.
structure Withheld (s : State) (handle : Handle) : Prop where
  known      : handle.id < s.devices.nextId
  notHanded  : ∀ c, s.handoff.get c ≠ some handle
  superseded : ∀ w, s.control.phase.lease? = some (w, handle) → s.Superseded w.transition

theorem Withheld.progress (h : s.Withheld handle) (hp : s.Progress t) : t.Withheld handle := by
  have hkept {w} (hl : s.control.phase.lease? = some (w, handle)) :
      t.Superseded w.transition := (h.superseded w hl).progress hp
  cases hp
  case steady hs =>
    refine ⟨Nat.lt_of_lt_of_le h.known hs.nextId, fun c hh => h.notHanded c (hs.handoff c _ hh), ?_⟩
    intro w hl
    cases hs.lease w handle hl
    case inl hl => exact hkept hl
    case inr hl => exact absurd h.known (Nat.not_lt.mpr hl.1)
  case accepts w other hp _ _ =>
    refine ⟨h.known, h.notHanded, ?_⟩
    rintro _ ⟨⟩
    exact hkept (hp ▸ rfl)
  case moves w other hp =>
    refine ⟨h.known, h.notHanded, ?_⟩
    rintro _ ⟨⟩
    exact hkept (hp ▸ rfl)
  case leaves w other next hp _ _ hl _ =>
    refine ⟨h.known, fun c hh => ?_, fun _ hv => nomatch hl.symm.trans hv⟩
    obtain hh | ⟨_, rfl⟩ := handoff_of_set_some hh
    · exact h.notHanded c hh
    · exact (h.superseded w (hp ▸ rfl)).notKept w (hp ▸ rfl) rfl
  case unlocks w hp =>
    have hl : w.done.lease? = none := ControlPhase.lease_next w.next
    exact ⟨h.known, h.notHanded, fun _ hv => nomatch hl.symm.trans hv⟩

theorem Withheld.reachable (h : s.Withheld handle) (hi : InStep s) (hr : Reachable s t) :
    t.Withheld handle := by
  induction hr
  case start => exact h
  case step hr he ih => exact ih.progress (step_progress (hi.reachable hr).idle he)

theorem InStep.withheld (h : InStep s) {w : Switch}
    (hl : s.control.phase.lease? = some (w, handle)) (hv : s.Superseded w.transition) :
    s.Withheld handle where
  known      := (h.leased w handle hl).1
  notHanded  := (h.leased w handle hl).2
  superseded := fun v hv' => by
    obtain rfl := (Prod.mk.inj (Option.some.inj (hl.symm.trans hv'))).1
    exact hv

-- The controller is as it was left when it accepted the switch, and the gate has not moved since.
structure Accepted (initial s : State) (w : Switch) : Prop where
  accepted : ∃ before handle, Reachable initial before ∧ Reachable before s ∧
    before.control.phase = .complete w handle ∧
    before.controller.complete w.transition = (true, s.controller) ∧
    before.gate.active = s.gate.active

theorem Accepted.of_moving {initial : State} (hi : InStep initial)
    (hm : initial.control.phase.moving? = none) (hr : Reachable initial s) :
    ∀ w, s.control.phase.moving? = some w → Accepted initial s w := by
  induction hr
  case start => exact fun _ hw => nomatch hm.symm.trans hw
  case step s t e hr he ih =>
    have h := hi.reachable hr
    intro w hw
    cases step_progress h.idle he
    case steady hs =>
      rw [hs.moving] at hw
      have ⟨before, handle, hb, hbs, hp, hc, hg⟩ := (ih w hw).accepted
      have hl : s.lock = some .control :=
        h.locked.mpr (by rw [ControlPhase.committed_of_moving hw]; rfl)
      exact ⟨before, handle, hb, .step hbs he, hp, by rw [hs.held hl, hc], by rw [hs.active, hg]⟩
    case accepts handle hp _ hi =>
      cases hw
      refine ⟨s, handle, hr, .step .start he, hp, ?_, rfl⟩
      rw [Controller.complete_of_pending hi]
      rfl
    case moves => cases hw
    case leaves hm _ _ => cases hm.symm.trans hw
    case unlocks w _ => cases (ControlPhase.moving_next w.next).symm.trans hw

-- Only an accepted switch moves the gate.
theorem moveGate_of_active_ne {e : Event} (h : InStep s) (he : s.step e = some t)
    (hg : t.gate.active ≠ s.gate.active) : ∃ w handle, s.control.phase = .moveGate w handle ∧
      t.gate = s.gate.switchTo w.transition.target s.config.switcher.warmupFrames := by
  cases step_progress h.idle he
  case steady hs => exact absurd hs.active hg
  case moves w handle hp => exact ⟨w, handle, hp, rfl⟩
  all_goals exact absurd rfl hg

theorem gate_agrees_with_controller {jpeg : JpegDecoder} {config : Config} {frames : FrameChannel}
    {detections : DetectionChannel} (hs : Reachable (.new jpeg config frames detections) s) :
    (s.lock ≠ some .control → s.gate.active = s.controller.active) ∧
    (∀ {e t}, s.step e = some t → t.gate.active ≠ s.gate.active → ∃ w handle,
      s.control.phase = .moveGate w handle ∧ Accepted (.new jpeg config frames detections) s w ∧
      t.gate = s.gate.switchTo w.transition.target s.config.switcher.warmupFrames) ∧
    (∀ {transition t}, s.Carries transition → ¬ s.controller.isPending transition →
      (∀ w, s.control.phase.committed? = some w → w.transition.id ≠ transition.id) →
      Reachable s t →
      (∀ w, t.control.phase.committed? = some w → w.transition.id ≠ transition.id) ∧
      ∀ {w handle u}, t.control.phase.lease? = some (w, handle) →
        w.transition.id = transition.id → Reachable t u → ∀ c, u.handoff.get c ≠ some handle) := by
  have h := InStep.new.reachable hs
  refine ⟨fun hl => h.agree hl, fun he hg => ?_, fun hc hp hk hr => ?_⟩
  · have ⟨w, handle, hp, hg⟩ := moveGate_of_active_ne h he hg
    exact ⟨w, handle, hp, .of_moving .new rfl hs w (hp ▸ rfl), hg⟩
  · have hv : s.Superseded _ := ⟨h.issued _ hc, hp, hk⟩
    have ht := h.reachable hr
    refine ⟨(hv.reachable h hr).notKept, fun hl hw hu => ?_⟩
    exact ((ht.withheld hl ((hv.reachable h hr).of_id hw)).reachable ht hu).notHanded

-- A command for the camera that is active comes while the other one is being opened.
def overruled : List Event :=
  let event (action : Action) : Event := ⟨⟨.start, ⟨0⟩⟩, action⟩
  let control (signal : Signal) := event (.thread .control signal)
  [event .start, event (.command ⟨.manual, some .night, none⟩), event .request]
    ++ List.replicate 5 (control .go) ++ [control .openLate] ++ List.replicate 7 (control .go)
    ++ [event (.command ⟨.manual, some .day, none⟩)]

theorem overruled_moves_nothing : ∃ s w handle,
    Reachable (.new .blind {} (.inProcess none) (.inProcess none)) s ∧
    s.control.phase.lease? = some (w, handle) ∧ s.gate.active = s.controller.active ∧
    ∀ u, Reachable s u → ∀ c, u.handoff.get c ≠ some handle := by
  have hr : ((State.new .blind {} (.inProcess none) (.inProcess none)).run overruled).map
      (fun s => (s.lock, s.controller.pending, s.control.phase.committed?, s.control.phase.switch?,
        s.control.phase.lease?)) =
      some (none, none, none, some ⟨⟨1, .day, .night, "manual"⟩, .checkStop⟩,
        some (⟨⟨1, .day, .night, "manual"⟩, .checkStop⟩, ⟨1, .night⟩)) := by
    rfl
  have ⟨s, hrun, h⟩ := Option.map_eq_some_iff.mp hr
  simp only [Prod.mk.injEq] at h
  have ⟨hl, hp, hc, hw, he⟩ := h
  have hs := Reachable.run .start hrun
  have ⟨ha, _, hv⟩ := gate_agrees_with_controller hs
  have hn := hv (.inr (.inr (.inr ⟨_, hw, rfl⟩))) (by simp [Controller.isPending, hp])
    (fun _ h => nomatch hc.symm.trans h) .start
  exact ⟨s, _, _, hs, he, ha (by simp [hl]), fun u hu => hn.2 he rfl hu⟩

end DayNight.Pipeline.State
