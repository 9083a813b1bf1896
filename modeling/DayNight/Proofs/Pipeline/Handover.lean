import DayNight.Proofs.Pipeline.Devices

namespace DayNight.Pipeline

def CapturePhase.isFailed : CapturePhase → Bool
  | failed _ _ => true
  | _ => false

-- The owner has raised the stop signal.
def OwnerPhase.hasStopped : OwnerPhase → Bool
  | idle => false
  | running => false
  | stopping _ => false
  | _ => true

theorem ControlPhase.claimed_of_lease {phase : ControlPhase} {w : Switch} {h : Handle}
    (hl : phase.lease? = some (w, h)) : phase.claimed? = some h.camera := by
  cases phase
  case opening | complete | moveGate | deposit | discard => cases hl; rfl
  all_goals cases hl

namespace CaptureThread

variable {own : CaptureThread} {limit : UInt32} {h : Handle}

-- The thread has the device, and does not give it up for its failures.
structure Retains (own : CaptureThread) (limit : UInt32) (h : Handle) : Prop where
  lease  : own.lease = some h
  spared : ∀ text bare, own.phase = .report text bare → own.failures % limit ≠ 0

namespace Retains

theorem goOn (hl : own.lease = some h) (next : AfterRelease) : (own.goOn next).Retains limit h := by
  cases next <;> exact ⟨hl, nofun⟩

theorem endFailure (hl : own.lease = some h) (bare : Bool) :
    (own.endFailure bare).Retains limit h := by
  cases bare <;> exact ⟨hl, nofun⟩

theorem afterPublish (hl : own.lease = some h) (luma : Option Float) :
    (own.afterPublish luma).Retains limit h := by
  cases luma <;> exact ⟨hl, nofun⟩

theorem afterReport (hl : own.lease = some h) (hn : own.failures % limit ≠ 0) (bare : Bool) :
    (own.afterReport limit bare).Retains limit h := by
  rw [CaptureThread.afterReport, if_neg fun hz => hn hz.1]
  exact endFailure hl bare

end Retains

theorem endFailure_failed (own : CaptureThread) (bare : Bool) :
    (own.endFailure bare).phase.isFailed = false ∧
    (own.endFailure bare).failures = own.failures := by
  cases bare <;> exact ⟨rfl, rfl⟩

theorem afterReport_failed (own : CaptureThread) (limit : UInt32) (bare : Bool) :
    (own.afterReport limit bare).phase.isFailed = false ∧
    (own.afterReport limit bare).failures = own.failures := by
  unfold afterReport
  split
  case isFalse => exact own.endFailure_failed bare
  case isTrue =>
    unfold release
    split <;> exact ⟨rfl, rfl⟩

end CaptureThread

namespace State

variable {s t : State} {c : Camera} {clock : Clock} {signal : Signal} {w : Switch} {h : Handle}
         {place : Place}

-- The open that a step has begun.
def begun? (s t : State) : Option Handle :=
  if s.devices.nextId < t.devices.nextId then t.devices.opening.head? else none

-- The opens of a camera's device in a run.
def opens (c : Camera) : State → List Event → List Handle
  | _, [] => []
  | s, e :: events =>
    match s.step e with
    | some t => (s.begun? t).toList.filter (fun h => h.camera = c) ++ t.opens c events
    | none => []

theorem opens_append {events others : List Event} (h : s.run events = some t) :
    s.opens c (events ++ others) = s.opens c events ++ t.opens c others := by
  induction events generalizing s
  case nil => cases h; rfl
  case cons e events ih =>
    have ⟨u, he, hu⟩ := run_cons h
    simp only [List.cons_append, opens, he, ih hu, List.append_assoc]

-- A step begins no open, or that of a device which was free.
theorem CaptureStep.opensFree (hs : s.CaptureStep c clock signal (s.captures.get c) t) :
    t.devices.nextId = s.devices.nextId ∨
    s.claims.isClaimed c = false ∧ t.devices = (s.devices.begin c).2 := by
  cases hs
  case claims hc => exact .inr ⟨(Claims.isClaimed_of_claim? hc).1, rfl⟩
  all_goals exact .inl rfl

theorem ControlStep.opensFree (hs : s.ControlStep clock t) : t.devices.nextId = s.devices.nextId ∨
    ∃ c, s.claims.isClaimed c = false ∧ t.devices = (s.devices.begin c).2 := by
  cases hs
  case probes hc => exact .inr ⟨_, (Claims.isClaimed_of_claim? hc).1, rfl⟩
  case claims hc => exact .inr ⟨_, (Claims.isClaimed_of_claim? hc).1, rfl⟩
  all_goals exact .inl rfl

theorem Step.opensFree (hs : s.Step t) : t.devices.nextId = s.devices.nextId ∨
    ∃ c, s.claims.isClaimed c = false ∧ t.devices = (s.devices.begin c).2 := by
  cases hs
  case capture hs => exact hs.opensFree.imp_right fun h => ⟨_, h⟩
  case control hs => exact hs.opensFree
  case owner hs | detector hs => cases hs <;> exact .inl rfl
  case arrivesLate hd | refusesLate hd | closesStray hd =>
    exact .inl (Devices.nextId_of_guard hd rfl)
  all_goals exact .inl rfl

theorem begun_of_begin (ht : t.devices = (s.devices.begin c).2) :
    s.begun? t = some (s.devices.begin c).1 := by
  rw [begun?, ht]
  exact if_pos (Nat.lt_succ_self _)

theorem begun_of_claimed (hs : s.Step t) (hc : s.claims.isClaimed c = true) :
    (s.begun? t).toList.filter (fun h => h.camera = c) = [] := by
  obtain hn | ⟨d, hd, ht⟩ := hs.opensFree
  · rw [begun?, if_neg (Nat.not_lt.mpr (Nat.le_of_eq hn))]
    rfl
  · have hne : d ≠ c := by
      rintro rfl
      cases hc.symm.trans hd
    rw [begun_of_begin ht]
    simpa [Devices.begin] using hne

theorem opens_single (hc : s.claims.isClaimed c = true) (e : Event) : s.opens c [e] = [] := by
  cases he : s.step e
  case none => rw [opens, he]
  case some => simp only [opens, he, begun_of_claimed (step_cases he) hc, List.append_nil]

-- The gate moves away from the camera, its thread counts a failure that makes a multiple of the
-- configured number, or the pipeline stops.
def revokes (s : State) (c : Camera) (t : State) : Bool :=
  t.stop.raised || (s.gate.active = c && t.gate.active ≠ c) ||
  ((s.captures.get c).phase.isFailed && !(t.captures.get c).phase.isFailed &&
    (t.captures.get c).failures % s.config.capture.maxFailedReads = 0)

-- Nothing of that happens in a run.
def undisturbed (c : Camera) : State → List Event → Bool
  | _, [] => true
  | s, e :: events =>
    match s.step e with
    | some t => !s.revokes c t && t.undisturbed c events
    | none => true

structure Spares (s : State) (c : Camera) (t : State) : Prop where
  stop   : ¬ t.stop.raised
  gate   : s.gate.active = c → t.gate.active = c
  failed : (s.captures.get c).phase.isFailed = true → (t.captures.get c).phase.isFailed = false →
    (t.captures.get c).failures % s.config.capture.maxFailedReads ≠ 0

theorem spares_of_not_revokes (h : s.revokes c t = false) : s.Spares c t := by
  simp only [revokes, Bool.or_eq_false_iff, Bool.and_eq_false_iff, decide_eq_false_iff_not,
    Bool.not_eq_false'] at h
  have ⟨⟨hr, hg⟩, hf⟩ := h
  refine ⟨by simp [hr], fun ha => ?_, fun hs ht hz => ?_⟩
  · simpa [ha] using hg
  · simp [hs, ht, hz] at hf

-- The device of a switch that was accepted: with the control thread until it is left in the slot,
-- in the slot, or with the thread of the camera. As long as it is kept for the camera, the gate
-- stands there.
inductive Kept (s : State) (w : Switch) (h : Handle) : Place → Prop
  | moving : s.control.phase = .moveGate w h → Kept s w h .control
  | leaving : s.control.phase = .deposit w h → s.gate.active = w.transition.target →
    Kept s w h .control
  | left : s.handoff.get w.transition.target = some h → s.gate.active = w.transition.target →
    Kept s w h .slot
  | taken : (s.captures.get w.transition.target).Retains s.config.capture.maxFailedReads h →
    s.gate.active = w.transition.target → Kept s w h .capture

theorem isClaimed_of_claimsIn (hc : s.Custody c) (place : Place)
    (hp : 0 < s.claimsIn c place) : s.claims.isClaimed c = true := by
  have hb := hc.counted
  rw [length_holders] at hb
  cases hf : s.claims.isClaimed c
  case true => rfl
  case false =>
    rw [hf, Bool.toNat_false] at hb
    cases place <;> omega

theorem claimsIn_capture (hl : (s.captures.get c).lease = some h) : 0 < s.claimsIn c .capture := by
  rw [claimsIn, CaptureThread.claims, hl]
  exact Nat.lt_of_lt_of_le Nat.one_pos (Nat.le_add_right ..)

theorem claimsIn_control (ho : Owned s) (hl : s.control.phase.lease? = some (w, h)) :
    s.claimsIn w.transition.target .control = 1 := by
  rw [claimsIn, ControlPhase.claimed_of_lease hl, ho.leases w h hl, decide_eq_true rfl]
  rfl

theorem isClaimed_of_lease (ho : Owned s) (hl : s.control.phase.lease? = some (w, h)) :
    s.claims.isClaimed w.transition.target = true :=
  isClaimed_of_claimsIn (ho.custody _) .control (by rw [claimsIn_control ho hl]; exact Nat.one_pos)

theorem Kept.isClaimed (hk : s.Kept w h place) (ho : Owned s) :
    s.claims.isClaimed w.transition.target = true := by
  cases hk
  case moving hp | leaving hp _ => exact isClaimed_of_lease (h := h) ho (by rw [hp]; rfl)
  case left hh _ =>
    refine isClaimed_of_claimsIn (ho.custody _) .slot ?_
    rw [claimsIn, hh]
    exact Nat.lt_of_lt_of_le Nat.one_pos (Nat.le_add_right ..)
  case taken hk _ => exact isClaimed_of_claimsIn (ho.custody _) .capture (claimsIn_capture hk.lease)

-- It is open.
theorem Kept.mem_opened (hk : s.Kept w h place) (ha : s.Accounted) : h ∈ s.devices.opened := by
  refine ha.opened.mem_iff.mpr ?_
  simp only [opened, slots, List.mem_append, List.mem_flatMap, Option.mem_toList]
  have hc (c : Camera) : c ∈ Camera.all := by cases c <;> decide
  cases hk
  case moving hp    => exact .inl (.inr (hp ▸ rfl))
  case leaving hp _ => exact .inl (.inr (hp ▸ rfl))
  case left hh _    => exact .inl (.inl (.inr ⟨_, hc _, hh⟩))
  case taken hk _ =>
    refine .inl (.inl (.inl ⟨w.transition.target, hc _, ?_⟩))
    rw [CaptureThread.opened, hk.lease]
    exact List.mem_append_left _ (List.mem_singleton_self h)

-- The owner looks for devices after the stop only.
def StopsFirst (s : State) : Prop := s.owner.hasStopped = true → s.stop.raised

theorem Step.stopsFirst (hs : s.Step t) (h : s.StopsFirst) : t.StopsFirst := by
  cases hs
  case starts     => nofun
  case spawnFails => exact fun _ => rfl
  case beginsStop => nofun
  case owner hs =>
    cases hs
    case raises => exact fun _ => rfl
    all_goals exact fun _ => h (by rw [‹s.owner = _›]; rfl)
  case capture hs | detector hs | control hs => cases hs <;> exact h
  all_goals exact h

theorem stopsFirst_of_reachable {jpeg : JpegDecoder} {config : Config} {frames : FrameChannel}
    {detections : DetectionChannel} (h : Reachable (.new jpeg config frames detections) s) :
    s.StopsFirst := by
  induction h
  case start          => nofun
  case step _ he ih => exact (step_cases he).stopsFirst ih

-- Only the control thread moves on in a switch, and it starts from the beginning.
theorem Step.control_phase (hs : s.Step t) (hi : InStep s)
    (hp : s.control.phase ≠ .notStarted ∧ s.control.phase ≠ .starting) :
    t.control.phase = s.control.phase ∨ ∃ clock, s.ControlStep clock t := by
  cases hs
  case starts ho       => exact absurd (hi.idle ho) hp.1
  case spawnFails _ hf => exact absurd (control_of_fresh hf) hp.2
  case control hs => exact .inr ⟨_, hs⟩
  case owner hs | capture hs | detector hs => cases hs <;> exact .inl rfl
  all_goals exact .inl rfl

theorem Step.handoff (hs : s.Step t) (ho : Owned s) (hf : s.StopsFirst) (hn : s.Spares c t)
    (hh : s.handoff.get c = some h) : t.handoff.get c = some h ∨
      (t.captures.get c).lease = some h ∧ (t.captures.get c).phase = .checkGate := by
  cases hs
  case capture d clock signal hs =>
    cases hs
    case takes g hp hg hl =>
      by_cases hd : c = d
      case neg => exact .inl ((PerCamera.get_set_of_ne _ hd _).trans hh)
      case pos =>
        subst hd
        obtain rfl := Option.some.inj (hh.symm.trans hg)
        exact .inr (by simp [setCapture])
    case replaces hg hl => cases ((ho.custody d).lease_of_handed hg).symm.trans hl
    all_goals exact .inl hh
  case control hs =>
    cases hs
    case leaves w _ hp hs =>
      have hd : c ≠ w.transition.target := by
        rintro rfl
        cases hs.symm.trans hh
      exact .inl ((PerCamera.get_set_of_ne _ hd _).trans hh)
    case replaces hp hs => cases (ho.slot_of_deposit hp).symm.trans hs
    all_goals exact .inl hh
  case owner hs =>
    cases hs
    case takes hp _ => exact absurd (hf (by rw [hp]; rfl)) hn.stop
    all_goals exact .inl hh
  case detector hs => cases hs <;> exact .inl hh
  all_goals exact .inl hh

-- The thread of the camera keeps the device as long as nothing takes it away.
theorem CaptureStep.retains (hs : s.CaptureStep c clock signal (s.captures.get c) t)
    (hk : (s.captures.get c).Retains s.config.capture.maxFailedReads h) (ho : s.Custody c)
    (hg : s.gate.active = c) (hn : s.Spares c t) :
    (t.captures.get c).Retains s.config.capture.maxFailedReads h := by
  have hx {u : State} {own : CaptureThread}
      (hr : own.Retains s.config.capture.maxFailedReads h) :
      ((u.setCapture c own).captures.get c).Retains s.config.capture.maxFailedReads h := by
    exact (captures_setCapture ..).symm ▸ hr
  have hl := hk.lease
  cases hs
  case begins hp _ | wakes hp _ _ | misses hp _ | goesOn hp _ _ | passes hp _ | claims hp _
      | fails hp | late hp | closes hp | reads hp _ | recovers hp _ _ | withholds hp _
      | samples hp _ _ | wants hp _ _ | requests hp | readFails hp =>
    exact hx ⟨hl, nofun⟩
  case ends hr | wakesUp hr       => exact absurd hr hn.stop
  case yields ha                  => exact absurd hg ha
  case needs hz                   => cases hz.symm.trans hl
  case takes hh _ | replaces hh _ => cases (ho.lease_of_handed hh).symm.trans hl
  -- Who has the device does not open it again.
  case opens hp =>
    have hone := ho.claims_le
    simp [CaptureThread.claims, hl, hp, CapturePhase.claims] at hone
  case unclaims               => exact hx (.goOn hl _)
  case publishes | clears     => exact hx (.afterPublish (by exact hl) _)
  case counts                 => exact hx (.endFailure (by exact hl) _)
  case reports hp _           => exact hx (.afterReport hl (hk.spared _ _ hp) _)
  case recounts e bare hp _ _ =>
    let own := { s.captures.get c with failures := (s.captures.get c).failures + 1 }
    obtain ⟨hf, hm⟩ := own.afterReport_failed s.config.capture.maxFailedReads bare
    have hz := hn.failed (hp ▸ rfl) (by rw [captures_setCapture]; exact hf)
    rw [captures_setCapture, hm] at hz
    exact hx (.afterReport (by exact hl) hz _)
  case gives hp _ _ =>
    have hz := hn.failed (hp ▸ rfl) (by rw [captures_setCapture]; rfl)
    rw [captures_setCapture] at hz
    exact hx ⟨hl, fun _ _ _ => hz⟩

theorem Step.retains (hs : s.Step t)
    (hk : (s.captures.get c).Retains s.config.capture.maxFailedReads h) (ho : s.Custody c)
    (hg : s.gate.active = c) (hn : s.Spares c t) :
    (t.captures.get c).Retains t.config.capture.maxFailedReads h := by
  have same {u : State} (hx : u.captures.get c = s.captures.get c)
      (hc : u.config = s.config := by rfl) :
      (u.captures.get c).Retains u.config.capture.maxFailedReads h := by
    rwa [hx, hc]
  cases hs
  case starts =>
    have hx : (PerCamera.get ⟨s.captures.day.goTo .checkStop, s.captures.night.goTo .checkStop⟩ c :
      CaptureThread) = (s.captures.get c).goTo .checkStop := by cases c <;> rfl
    exact hx ▸ ⟨hk.lease, nofun⟩
  -- A thread that has a device has been at work.
  case spawnFails _ hf =>
    obtain hx | ⟨hx, _⟩ := withdraw_captures hf c
    · exact same hx
    · cases hk.lease.symm.trans (congrArg CaptureThread.lease hx)
  case capture d clock signal hs =>
    by_cases hd : c = d
    case pos =>
      subst hd
      have h := hs.retains hk ho hg hn
      cases hs <;> exact h
    case neg => cases hs <;> exact same (PerCamera.get_set_of_ne _ hd _)
  case owner hs | detector hs | control hs => cases hs <;> exact same rfl
  all_goals exact same rfl

-- The device goes its way, and stays with the thread of the camera when it has come there.
theorem Kept.step (hk : s.Kept w h place) (hs : s.Step t) (hi : InStep s) (ho : Owned s)
    (hf : s.StopsFirst) (hn : s.Spares w.transition.target t) :
    ∃ next, t.Kept w h next ∧ (place = .capture → next = .capture) := by
  cases hk
  case moving hp =>
    obtain ht | ⟨clock, hs⟩ := hs.control_phase hi (by rw [hp]; exact ⟨nofun, nofun⟩)
    · exact ⟨_, .moving (ht.trans hp), nofun⟩
    · cases hs
      case moves hq =>
        cases hp.symm.trans hq
        exact ⟨_, .leaving rfl rfl, nofun⟩
      all_goals cases hp.symm.trans ‹s.control.phase = _›
  case leaving hp hg =>
    obtain ht | ⟨clock, hs⟩ := hs.control_phase hi (by rw [hp]; exact ⟨nofun, nofun⟩)
    · exact ⟨_, .leaving (ht.trans hp) (hn.gate hg), nofun⟩
    · cases hs
      case leaves hq hz =>
        cases hp.symm.trans hq
        exact ⟨_, .left (PerCamera.get_set_self ..) hg, nofun⟩
      case replaces hq hz => cases (ho.slot_of_deposit hq).symm.trans hz
      all_goals cases hp.symm.trans ‹s.control.phase = _›
  case left hh hg =>
    have hg := hn.gate hg
    obtain hh | ⟨hl, hp⟩ := hs.handoff ho hf hn hh
    · exact ⟨_, .left hh hg, nofun⟩
    · exact ⟨_, .taken ⟨hl, by rw [hp]; nofun⟩ hg, nofun⟩
  case taken hk hg =>
    exact ⟨_, .taken (hs.retains hk (ho.custody _) hg hn) (hn.gate hg), fun _ => rfl⟩

variable {jpeg : JpegDecoder} {config : Config} {frames : FrameChannel}
         {detections : DetectionChannel} {events : List Event}

-- On its way nobody opens the device anew.
theorem Kept.run (hk : s.Kept w h place) (hs : Reachable (.new jpeg config frames detections) s)
    (ht : s.run events = some t) (hu : s.undisturbed w.transition.target events = true) :
    s.opens w.transition.target events = [] ∧
    ∃ next, t.Kept w h next ∧ (place = .capture → next = .capture) := by
  induction events generalizing s place
  case nil => cases ht; exact ⟨rfl, place, hk, id⟩
  case cons e events ih =>
    have ⟨u, he, ht⟩ := run_cons ht
    simp only [undisturbed, he, Bool.and_eq_true, Bool.not_eq_true'] at hu
    have hu' := step_cases he
    have ho := owned_of_reachable hs
    have ⟨next, hn, hc⟩ := hk.step hu' (InStep.new.reachable hs) ho (stopsFirst_of_reachable hs)
      (spares_of_not_revokes hu.1)
    have ⟨hopens, last, hl, hd⟩ := ih hn (hs.step he) ht hu.2
    refine ⟨?_, last, hl, fun h => hd (hc h)⟩
    simp only [opens, he, begun_of_claimed hu' (hk.isClaimed ho), hopens, List.nil_append]

theorem Progress.lease (hs : s.Progress t) (hi : h.id < s.devices.nextId) :
    s.devices.nextId ≤ t.devices.nextId ∧
    (t.control.phase.lease? = some (w, h) → s.control.phase.lease? = some (w, h)) := by
  cases hs
  case steady hs =>
    refine ⟨hs.nextId, fun hl => ?_⟩
    obtain hk | hn := hs.lease w h hl
    · exact hk
    · exact absurd hi (Nat.not_lt.mpr hn.1)
  case accepts hp _ _   => exact ⟨Nat.le_refl _, fun hl => hp ▸ hl⟩
  case moves hp         => exact ⟨Nat.le_refl _, fun hl => hp ▸ hl⟩
  case leaves hn _      => exact ⟨Nat.le_refl _, fun hl => nomatch hn.symm.trans hl⟩
  case unlocks w _      =>
    exact ⟨Nat.le_refl _, fun hl => nomatch (ControlPhase.lease_next w.next).symm.trans hl⟩

-- A switch that still has its device has had it since it began to open it, and nobody else has
-- begun to.
theorem opens_of_lease (hs : Reachable (.new jpeg config frames detections) s)
    (ht : s.run events = some t) (hi : h.id < s.devices.nextId)
    (hl : t.control.phase.lease? = some (w, h)) :
    s.control.phase.lease? = some (w, h) ∧ s.opens w.transition.target events = [] := by
  induction events generalizing s
  case nil => cases ht; exact ⟨hl, rfl⟩
  case cons e events ih =>
    have ⟨u, he, ht⟩ := run_cons ht
    have ⟨hn, hb⟩ := (step_progress (InStep.new.reachable hs).idle he).lease (w := w) hi
    have ⟨hlu, hopens⟩ := ih (hs.step he) ht (Nat.lt_of_lt_of_le hi hn)
    have hls := hb hlu
    have hc := isClaimed_of_lease (owned_of_reachable hs) hls
    refine ⟨hls, ?_⟩
    simp only [opens, he, begun_of_claimed (step_cases he) hc, hopens, List.nil_append]

-- With the claim the control thread begins to open the device.
theorem begun_of_claim {deadline : Moment} {limit : Duration} {e : Event}
    (he : s.step e = some t) (hi : InStep s) (hp : s.control.phase = .claim w deadline)
    (hq : t.control.phase = .opening w h limit) :
    (s.begun? t).toList.filter (fun h => h.camera = w.transition.target) = [h] ∧
    h.id < t.devices.nextId := by
  obtain ht | ⟨clock, hs⟩ := (step_cases he).control_phase hi (by rw [hp]; exact ⟨nofun, nofun⟩)
  · cases hp.symm.trans (ht.symm.trans hq)
  · cases hs
    case claims hr hc =>
      cases hp.symm.trans hr
      cases hq
      rw [begun_of_begin rfl]
      exact ⟨by simp [Devices.begin], Nat.lt_succ_self _⟩
    case givesUp | pauses => cases hq
    all_goals cases hp.symm.trans ‹s.control.phase = _›

-- A device that the thread of the camera has is nowhere else.
theorem Kept.taken_of_lease (hk : s.Kept w h place) (ho : Owned s) {g : Handle}
    (hl : (s.captures.get w.transition.target).lease = some g) : place = .capture := by
  have hc := ho.custody w.transition.target
  have hcontrol (hp : s.control.phase.lease? = some (w, h)) : False := by
    have hb := hc.counted
    have hn := (s.claims.isClaimed w.transition.target).toNat_le
    have hone := claimsIn_capture hl
    rw [length_holders, claimsIn_control ho hp] at hb
    omega
  cases hk
  case moving hp | leaving hp _ => exact (hcontrol (hp ▸ rfl)).elim
  case left hh _                => cases (hc.lease_of_handed hh).symm.trans hl
  case taken                    => rfl

-- In its next turn the thread of the camera takes the device.
theorem Step.takes (hs : s.Step t) (ho : Owned s) (hw : s.Sound) (hh : s.handoff.get c = some h)
    (hp : (s.captures.get c).phase = .takeOver) (hn : (t.captures.get c).phase ≠ .takeOver) :
    (t.captures.get c).lease = some h := by
  have same {u : State} (hx : u.captures.get c = s.captures.get c) :
      (u.captures.get c).phase = .takeOver := by rw [hx, hp]
  cases hs
  case starts hi => cases hp.symm.trans (hw.idle hi c)
  case spawnFails _ hf =>
    obtain hx | ⟨hx, _⟩ := withdraw_captures hf c
    · exact absurd (same hx) hn
    · cases hp.symm.trans (congrArg CaptureThread.phase hx)
  case capture d clock signal hs =>
    by_cases hd : c = d
    case neg => cases hs <;> exact absurd (same (PerCamera.get_set_of_ne _ hd _)) hn
    case pos =>
      subst hd
      cases hs
      case takes hg _ =>
        obtain rfl := Option.some.inj (hh.symm.trans hg)
        simp [setCapture]
      case misses hg      => cases hg.symm.trans hh
      case replaces hg hl => cases ((ho.custody c).lease_of_handed hg).symm.trans hl
      all_goals cases hp.symm.trans ‹(s.captures.get c).phase = _›
  case owner hs | detector hs | control hs => cases hs <;> exact absurd (same rfl) hn
  all_goals exact absurd (same rfl) hn

-- A switch that is carried out opens its device once, and nobody opens the device again. It stays
-- open: the thread of the camera takes it in its next turn, and keeps it until something takes it
-- away. Nothing can do that before the switch has left the device in the slot, not even the stop.
theorem switch_opens_its_device_once {a b : State} {deadline : Moment} {limit : Duration}
    {e : Event} {before after : List Event} (hs : Reachable (.new jpeg config frames detections) s)
    (hp : s.control.phase = .claim w deadline) (ha : s.step e = some a)
    (hq : a.control.phase = .opening w h limit) (hb : a.run before = some b)
    (hm : b.control.phase = .moveGate w h) (ht : b.run after = some t)
    (hu : b.undisturbed w.transition.target after = true) :
    s.opens w.transition.target (e :: before ++ after) = [h] ∧
    b.opens w.transition.target after = [] ∧ h ∈ t.devices.opened ∧
    (t.control.phase = .moveGate w h ∨ t.control.phase = .deposit w h ∨
      t.handoff.get w.transition.target = some h ∨
      (t.captures.get w.transition.target).lease = some h) ∧
    (∀ e u, t.step e = some u → t.handoff.get w.transition.target = some h →
      (t.captures.get w.transition.target).phase = .takeOver →
      (u.captures.get w.transition.target).phase ≠ .takeOver →
      (u.captures.get w.transition.target).lease = some h) ∧
    ((t.captures.get w.transition.target).lease = some h → ∀ later u, t.run later = some u →
      t.undisturbed w.transition.target later = true →
      (u.captures.get w.transition.target).lease = some h) ∧
    (∀ meanwhile u, b.run meanwhile = some u →
      (u.control.phase = .moveGate w h ∨ u.control.phase = .deposit w h) →
      s.opens w.transition.target (e :: before ++ meanwhile) = [h] ∧
      ∀ last, u.opens w.transition.target [last] = []) := by
  have hra := hs.step ha
  have hrb := hra.run hb
  have hrt := hrb.run ht
  have ho := owned_of_reachable hrt
  have ⟨hone, hi⟩ := begun_of_claim ha (InStep.new.reachable hs) hp hq
  have ⟨_, hnone⟩ := opens_of_lease hra hb hi (w := w) (by rw [hm]; rfl)
  obtain ⟨hafter, place, hk, -⟩ := (Kept.moving hm).run hrb ht hu
  refine ⟨?_, hafter, hk.mem_opened (accounted_of_reachable hrt), ?_, ?_, ?_, ?_⟩
  · rw [List.cons_append, opens, ha]
    simp only [hone, opens_append hb, hnone, hafter, List.append_nil]
  · cases hk
    case moving hp    => exact .inl hp
    case leaving hp _ => exact .inr (.inl hp)
    case left hh _    => exact .inr (.inr (.inl hh))
    case taken hr _   => exact .inr (.inr (.inr hr.lease))
  · exact fun e u he hh => (step_cases he).takes ho (tracked_of_reachable hrt).1 hh
  · intro hl later u hu hd
    obtain rfl := hk.taken_of_lease ho hl
    have ⟨_, next, hn, hc⟩ := hk.run hrt hu hd
    obtain rfl := hc rfl
    cases hn
    case taken hr _ => exact hr.lease
  · intro meanwhile u hu hphase
    have hl : u.control.phase.lease? = some (w, h) := by
      obtain hp | hp := hphase <;> rw [hp] <;> rfl
    have hc := isClaimed_of_lease (owned_of_reachable (hrb.run hu)) hl
    have ⟨_, hnone⟩ := opens_of_lease hra (run_append hb hu) hi hl
    refine ⟨?_, opens_single hc⟩
    rw [List.cons_append, opens, ha]
    simp only [hone, hnone, List.append_nil]

-- A switch to the night camera gets as far as to claim the device.
def untilClaim : List Event :=
  let event (action : Action) : Event := ⟨⟨.start, ⟨0⟩⟩, action⟩
  let control (signal : Signal) := event (.thread .control signal)
  [event .start, event (.command ⟨.manual, some .night, none⟩), event .request]
    ++ List.replicate 5 (control .go) ++ [control .openLate] ++ List.replicate 6 (control .go)

-- It is carried out, then a read of the night camera fails once.
def handedOver : List Event :=
  let event (action : Action) : Event := ⟨⟨.start, ⟨0⟩⟩, action⟩
  let control := event (.thread .control .go)
  let night (signal : Signal) := event (.thread (.capture .night) signal)
  [control, control] ++ List.replicate 3 (night .go) ++ [night (.read (.error (.reading "lost")))]
    ++ [night .go, night .timeUp] ++ List.replicate 3 (night .go)

theorem switch_opens_its_device_once_despite_failure : ∃ s t : State, ∃ events,
    Reachable (.new .blind {} (.inProcess none) (.inProcess none)) s ∧ s.run events = some t ∧
    s.opens .night events = [⟨1, .night⟩] ∧ ⟨1, .night⟩ ∈ t.devices.opened ∧
    (t.captures.get .night).failures = 1 ∧ (t.captures.get .night).phase = .reading ∧
    (t.captures.get .night).lease = some ⟨1, .night⟩ := by
  let go : Event := ⟨⟨.start, ⟨0⟩⟩, .thread .control .go⟩
  let opened : List Event := [⟨⟨.start, ⟨0⟩⟩, .thread .control .opened⟩, go]
  let w : Switch := ⟨⟨1, .day, .night, "manual"⟩, .checkStop⟩
  have hr : (((State.new .blind {} (.inProcess none) (.inProcess none)).run untilClaim).bind
      fun s => (s.step go).bind fun a => (a.run opened).bind fun b => (b.run handedOver).map fun t =>
        (s.control.phase, a.control.phase, b.control.phase, b.undisturbed .night handedOver,
          t.captures.get .night)) = some (.claim w ⟨2000000000⟩,
        .opening w ⟨1, .night⟩ ⟨2000000000⟩, .moveGate w ⟨1, .night⟩, true,
        ⟨.reading, some ⟨1, .night⟩, 0, 1, false⟩) := by
    rfl
  have ⟨s, hs, hr⟩ := Option.bind_eq_some_iff.mp hr
  have ⟨a, ha, hr⟩ := Option.bind_eq_some_iff.mp hr
  have ⟨b, hb, hr⟩ := Option.bind_eq_some_iff.mp hr
  have ⟨t, ht, hr⟩ := Option.map_eq_some_iff.mp hr
  simp only [Prod.mk.injEq] at hr
  have ⟨hp, hq, hm, hu, hx⟩ := hr
  have hrs := Reachable.run .start hs
  have ⟨hopens, _, hmem, _⟩ := switch_opens_its_device_once hrs hp ha hq hb hm ht hu
  exact ⟨s, t, _, hrs, run_append (run_append (run_single ha) hb) ht, hopens, hmem,
    by rw [hx], by rw [hx], by rw [hx]⟩

end State

end DayNight.Pipeline
