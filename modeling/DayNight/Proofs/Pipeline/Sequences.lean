import DayNight.Proofs.Channel.Newest
import DayNight.Proofs.Gate.History
import DayNight.Proofs.Pipeline.Detections
import DayNight.Proofs.Pipeline.Handover
import DayNight.Proofs.Pipeline.Leases

namespace DayNight

namespace Gate

variable {g : Gate} {camera : Camera} {frame : Frame} {frames : FrameChannel}

-- Whoever gets through has warmed up.
theorem publish_of_published {number : UInt64}
    (h : (g.publish camera frame frames).1 = .ok (.published number)) :
    g.active = camera ∧ g.warmupLeft = 0 := by
  by_cases ho : g.isOpen
  case neg => rw [publish_of_closed ho] at h; cases h
  case pos =>
    by_cases hc : camera = g.active
    case neg => rw [publish_of_inactive ho hc] at h; cases h
    case pos =>
      by_cases h0 : g.warmupLeft = 0
      case neg => rw [publish_of_cold ho hc (UInt32.pos_iff_ne_zero.mpr h0)] at h; cases h
      case pos => exact ⟨hc.symm, h0⟩

theorem publish_of_ne (h : camera ≠ g.active) : (g.publish camera frame frames).2.1 = g := by
  by_cases ho : g.isOpen
  case neg => rw [publish_of_closed ho]
  case pos => rw [publish_of_inactive ho h]

-- An offer is one image of the warm-up at most.
theorem warmup_of_publish :
    g.warmupLeft.toNat ≤ (g.publish camera frame frames).2.1.warmupLeft.toNat + 1 := by
  by_cases ho : g.isOpen
  case neg => rw [publish_of_closed ho]; exact Nat.le_succ _
  case pos =>
    by_cases hc : camera = g.active
    case neg => rw [publish_of_inactive ho hc]; exact Nat.le_succ _
    case pos =>
      by_cases h0 : g.warmupLeft = 0
      case pos => rw [publish_of_warm ho hc h0]; exact Nat.le_succ _
      case neg =>
        have hp : 0 < g.warmupLeft := UInt32.pos_iff_ne_zero.mpr h0
        rw [publish_of_cold ho hc hp, UInt32.toNat_sub_of_le _ _ (UInt32.lt_iff_toNat_lt.mp hp)]
        exact Nat.le_of_eq (Nat.sub_add_cancel (UInt32.lt_iff_toNat_lt.mp hp)).symm

end Gate

namespace Pipeline

-- A read of the camera's thread that succeeds.
def Action.isReadOf (c : Camera) : Action → Bool
  | .thread (.capture d) (.read (.ok _)) => d = c
  | _ => false

def reads (c : Camera) (events : List Event) : Nat := events.countP fun e => e.action.isReadOf c

-- The camera that the gate moves to in the thread's next step.
def ControlPhase.movesTo? : ControlPhase → Option Camera
  | moveGate w _ => some w.transition.target
  | _ => none

-- How many images the thread has read and not offered yet.
def CapturePhase.inHand : CapturePhase → Nat
  | publish _ _ => 1
  | _ => 0

namespace State

variable {s t u : State} {c : Camera} {e : Event} {clock : Clock} {signal : Signal}
         {n floor : Nat}

-- The frame that gets into the channel, and the camera whose thread has offered it.
def shown? (s : State) (e : Event) : Option (Camera × Frame) :=
  match s.visit? e with
  | some (.act (.offer c frame)) =>
    match (s.gate.publish c frame s.frames).1 with
    | .ok (.published _) => some (c, frame)
    | _ => none
  | _ => none

-- The frames that get into the channel in a run.
def shown : State → List Event → List (Camera × Frame)
  | _, [] => []
  | s, e :: events =>
    match s.step e with
    | some t => (s.shown? e).toList ++ t.shown events
    | none => []

-- Those that the thread of the camera has offered.
def shownOf (c : Camera) (s : State) (events : List Event) : List Frame :=
  ((s.shown events).filter fun entry => entry.1 = c).map (·.2)

-- Who goes to the gate or to the channels.
inductive Visits (s : State) (e : Event) : Outlet.Visit → Prop
  | offers {c signal image luma} : e.action = .thread (.capture c) signal →
    (s.captures.get c).phase = .publish image luma →
    Visits s e (.act (.offer c ⟨image, c, (s.captures.get c).sequence, e.clock.wall⟩))
  | looks : Visits s e .readFrame
  | publishes {detection} : Visits s e (.act (.publish detection))
  | moves {w h signal} : e.action = .thread .control signal → s.control.phase = .moveGate w h →
    Visits s e (.act (.switchTo w.transition.target s.config.switcher.warmupFrames))
  | closes : Visits s e (.act .close)
  | reads : Visits s e .readDetection

theorem visits_of_visit {visit : Outlet.Visit} (h : s.visit? e = some visit) :
    s.Visits e visit := by
  obtain ⟨clock, action⟩ := e
  cases action
  case beginStop | spawnFails => cases h; exact .closes
  case readFrame => cases h; exact .looks
  case readDetection => cases h; exact .reads
  case thread thread signal =>
    cases thread
    case capture c =>
      simp only [visit?] at h
      cases hp : (s.captures.get c).phase <;> rw [hp] at h <;> cases h
      exact .offers rfl hp
    case detector =>
      simp only [visit?] at h
      cases hp : s.detector.phase <;> rw [hp] at h <;> cases h
      case look    => exact .looks
      case publish => exact .publishes
    case control =>
      simp only [visit?] at h
      cases hp : s.control.phase <;> rw [hp] at h <;> cases h
      exact .moves rfl hp
  all_goals cases h

-- A frame is shown when the camera's thread offers it, as what the thread has made of its image.
theorem shown_cases {frame : Frame} (h : s.shown? e = some (c, frame)) :
    (∃ signal, e.action = .thread (.capture c) signal) ∧
    (∃ image luma, (s.captures.get c).phase = .publish image luma ∧
      frame = ⟨image, c, (s.captures.get c).sequence, e.clock.wall⟩) ∧
    ∃ number, (s.gate.publish c frame s.frames).1 = .ok (.published number) := by
  unfold shown? at h
  split at h
  case h_2 => cases h
  case h_1 hv =>
    split at h
    case h_2 => cases h
    case h_1 ha =>
      cases h
      cases visits_of_visit hv
      case offers he hp => exact ⟨⟨_, he⟩, ⟨_, _, hp, rfl⟩, _, ha⟩

theorem shown_of_offer {image : Image} {luma : Option Float} {number : UInt64}
    (he : e.action = .thread (.capture c) signal)
    (hp : (s.captures.get c).phase = .publish image luma)
    (ha : (s.gate.publish c ⟨image, c, (s.captures.get c).sequence, e.clock.wall⟩ s.frames).1 =
      .ok (.published number)) :
    s.shown? e = some (c, ⟨image, c, (s.captures.get c).sequence, e.clock.wall⟩) := by
  have hv : s.visit? e =
      some (.act (.offer c ⟨image, c, (s.captures.get c).sequence, e.clock.wall⟩)) := by
    rw [visit?, he]
    dsimp only
    rw [hp]
    rfl
  rw [shown?, hv]
  dsimp only
  rw [ha]

end State

-- The thread goes on with the same count and without an image in hand.
structure CaptureThread.Drops (t own : CaptureThread) : Prop where
  sequence : own.sequence = t.sequence
  inHand   : own.phase.inHand = 0

namespace CaptureThread.Drops

variable {t : CaptureThread}

theorem goTo {phase : CapturePhase} (h : phase.inHand = 0 := by rfl) : t.Drops (t.goTo phase) :=
  ⟨rfl, h⟩

-- What the thread counts besides does not matter.
theorem congr {failures : UInt32} {degraded : Bool} {own : CaptureThread}
    (h : Drops { t with failures := failures, degraded := degraded } own) : t.Drops own :=
  ⟨h.sequence, h.inHand⟩

theorem goOn (next : AfterRelease) : t.Drops (t.goOn next) := by
  cases next <;> exact .goTo

theorem release (next : AfterRelease) : t.Drops (t.release next) := by
  unfold CaptureThread.release
  split
  case h_1 => exact ⟨rfl, rfl⟩
  case h_2 => exact .goOn next

theorem endFailure (bare : Bool) : t.Drops (t.endFailure bare) := by
  cases bare <;> exact .goTo

theorem afterReport (limit : UInt32) (bare : Bool) : t.Drops (t.afterReport limit bare) := by
  unfold CaptureThread.afterReport
  split
  case isTrue  => exact .release .sleep
  case isFalse => exact .endFailure bare

theorem afterPublish (luma : Option Float) : t.Drops (t.afterPublish luma) := by
  cases luma <;> exact .goTo

end CaptureThread.Drops

namespace State

variable {s t u : State} {c : Camera} {e : Event} {clock : Clock} {signal : Signal}
         {n floor : Nat}

theorem reading_of_read {answer : Except SourceError Image}
    (h : s.captureStep c clock (.read answer) = some t) :
    (s.captures.get c).phase = .reading := by
  cases hp : (s.captures.get c).phase
  case reading => rfl
  all_goals simp [captureStep, hp] at h

-- The thread of the camera has read `n` images. No frame up to `floor` will be shown any more: when
-- the camera is active, too few images are left in the warm-up, and else there is a whole warm-up
-- to come.
structure Numbering (s : State) (c : Camera) (n floor : Nat) : Prop where
  sequence : (s.captures.get c).sequence = .ofNat n
  floor_le : floor ≤ n + s.config.switcher.warmupFrames.toNat
  active   : s.gate.active = c →
    floor + (s.captures.get c).phase.inHand ≤ n + s.gate.warmupLeft.toNat

namespace Numbering

-- The thread goes on, and the gate is as it was.
theorem drops (h : s.Numbering c n floor) (hd : (s.captures.get c).Drops (t.captures.get c))
    (hg : t.gate = s.gate := by rfl) (hc : t.config = s.config := by rfl) :
    t.Numbering c n floor where
  sequence := hd.sequence.trans h.sequence
  floor_le := hc ▸ h.floor_le
  active   := fun ha => by
    have hf := h.active (hg ▸ ha)
    rw [hd.inHand, hg]
    omega

theorem reads (h : s.Numbering c n floor) (hi : (s.captures.get c).phase.inHand = 0)
    (hs : (t.captures.get c).sequence = (s.captures.get c).sequence + 1)
    (hj : (t.captures.get c).phase.inHand = 1)
    (hg : t.gate = s.gate := by rfl) (hc : t.config = s.config := by rfl) :
    t.Numbering c (n + 1) floor where
  sequence := by rw [hs, h.sequence]; simp
  floor_le := by
    have hf := h.floor_le
    rw [hc]
    omega
  active   := fun ha => by
    have hf := h.active (hg ▸ ha)
    rw [hj, hg]
    omega

variable {frame : Frame}

-- The thread offers its image at the gate.
theorem offers (h : s.Numbering c n floor) (hi : (s.captures.get c).phase.inHand = 1)
    (hd : (s.captures.get c).Drops (t.captures.get c))
    (hg : t.gate = (s.gate.publish c frame s.frames).2.1 := by rfl)
    (hc : t.config = s.config := by rfl) : t.Numbering c n floor where
  sequence := hd.sequence.trans h.sequence
  floor_le := hc ▸ h.floor_le
  active   := fun ha => by
    have hf := h.active (by rw [hg, Gate.publish_gate.2] at ha; exact ha)
    have hw : s.gate.warmupLeft.toNat ≤
        (s.gate.publish c frame s.frames).2.1.warmupLeft.toNat + 1 := Gate.warmup_of_publish
    rw [hd.inHand, hg]
    omega

-- It gets through.
theorem shows (h : s.Numbering c n floor) (hi : (s.captures.get c).phase.inHand = 1)
    (hd : (s.captures.get c).Drops (t.captures.get c)) {number : UInt64}
    (hn : (s.gate.publish c frame s.frames).1 = .ok (.published number)) :
    floor < n ∧ t.Numbering c n n := by
  have ⟨ha, hw⟩ := Gate.publish_of_published hn
  have hf := h.active ha
  rw [hi, hw] at hf
  refine ⟨hf, hd.sequence.trans h.sequence, Nat.le_add_right .., fun _ => ?_⟩
  rw [hd.inHand]
  exact Nat.le_add_right ..

end Numbering

-- What a step means for the frames of a camera.
inductive Counts (s : State) (c : Camera) (e : Event) (t : State) (n floor : Nat) : Prop
  | shows {frame : Frame} : s.shown? e = some (c, frame) → frame.camera = c →
    frame.sequence = .ofNat n → floor < n → e.action.isReadOf c = false →
    t.Numbering c n n → Counts s c e t n floor
  | reads : (∀ frame, s.shown? e ≠ some (c, frame)) → e.action.isReadOf c = true →
    t.Numbering c (n + 1) floor → Counts s c e t n floor
  | nothing : (∀ frame, s.shown? e ≠ some (c, frame)) → e.action.isReadOf c = false →
    t.Numbering c n floor → Counts s c e t n floor

-- Only an image in hand can be shown.
theorem not_shown (hi : (s.captures.get c).phase.inHand = 0) (frame : Frame) :
    s.shown? e ≠ some (c, frame) := fun hs => by
  have ⟨_, ⟨_, _, hp, _⟩, _⟩ := shown_cases hs
  rw [hp] at hi
  cases hi

theorem counts_of_reading (he : s.captureStep c e.clock signal = some t)
    (ha : e.action = .thread (.capture c) signal) (hp : (s.captures.get c).phase = .reading)
    (h : s.Numbering c n floor) : s.Counts c e t n floor := by
  have hget := captures_setCapture (c := c)
  have hi : (s.captures.get c).phase.inHand = 0 := by rw [hp]; rfl
  cases signal
  case read answer =>
    cases answer
    case error =>
      refine .nothing (not_shown hi) (by rw [ha]; rfl) ?_
      simp only [captureStep, hp] at he
      cases he
      exact h.drops (by rw [hget]; exact .goTo)
    case ok image =>
      refine .reads (not_shown hi) (by rw [ha]; exact decide_eq_true rfl) ?_
      simp only [captureStep, hp] at he
      split at he
      case h_1 => cases he; exact h.reads hi (by rw [hget]; rfl) (by rw [hget]; rfl)
      case h_2 => cases he
  all_goals simp [captureStep, hp] at he

theorem counts_of_captureStep (he : s.captureStep c e.clock signal = some t)
    (ha : e.action = .thread (.capture c) signal) (h : s.Numbering c n floor) :
    s.Counts c e t n floor := by
  have hget := captures_setCapture (c := c)
  by_cases hp : (s.captures.get c).phase = .reading
  case pos => exact counts_of_reading he ha hp h
  case neg =>
    have hr : e.action.isReadOf c = false := by
      rw [ha]
      cases signal
      case read answer => exact absurd (reading_of_read he) hp
      all_goals rfl
    have other (hi : (s.captures.get c).phase.inHand = 0)
        (hd : (s.captures.get c).Drops (t.captures.get c)) (hg : t.gate = s.gate := by rfl)
        (hc : t.config = s.config := by rfl) : s.Counts c e t n floor :=
      .nothing (not_shown hi) hr (h.drops hd hg hc)
    have shows {image : Image} {luma : Option Float} {number : UInt64}
        (hq : (s.captures.get c).phase = .publish image luma)
        (hn : (s.gate.publish c ⟨image, c, (s.captures.get c).sequence, e.clock.wall⟩ s.frames).1 =
          .ok (.published number)) (hd : (s.captures.get c).Drops (t.captures.get c)) :
        s.Counts c e t n floor := by
      obtain ⟨hlt, ht⟩ := h.shows (by rw [hq]; rfl) hd hn
      exact .shows (shown_of_offer ha hq hn) rfl h.sequence hlt hr ht
    cases captureStep_cases he
    case reads hq _ | readFails hq => exact absurd hq hp
    case ends hq _ | wakesUp hq _ _ =>
      exact other (by rw [hq]; rfl) (by rw [hget]; exact .release _)
    case yields hq _ => exact other (by rw [hq]; rfl) (by rw [hget]; exact .congr (.release _))
    case unclaims hq => exact other (by rw [hq]; rfl) (by rw [hget]; exact .goOn _)
    case clears hq _ => exact other (by rw [hq]; rfl) (by rw [hget]; exact .afterPublish _)
    case counts hq _ => exact other (by rw [hq]; rfl) (by rw [hget]; exact .congr (.endFailure _))
    case recounts hq _ _ =>
      exact other (by rw [hq]; rfl) (by rw [hget]; exact .congr (.afterReport _ _))
    case reports hq _ => exact other (by rw [hq]; rfl) (by rw [hget]; exact .afterReport _ _)
    case publishes hq hn _ => exact shows hq hn (by rw [hget]; exact .congr (.afterPublish _))
    case recovers hq hn _ => exact shows hq hn (by rw [hget]; exact ⟨rfl, rfl⟩)
    case withholds image luma hq hn =>
      refine .nothing (fun frame hs => ?_) hr
        (h.offers (by rw [hq]; rfl) (by rw [hget]; exact .goTo))
      obtain ⟨_, ⟨_, _, hq', rfl⟩, number, ho⟩ := shown_cases hs
      cases hq.symm.trans hq'
      exact hn number ho
    all_goals
      exact other (by rw [‹(s.captures.get c).phase = _›]; rfl) (by rw [hget]; exact ⟨rfl, rfl⟩)

-- A switch to the camera finds its thread without an image in hand, for it has no device.
theorem inHand_of_switch {w : Switch} {h : Handle} (ho : Owned s)
    (hs : ∀ c, (s.captures.get c).Settled) (hp : s.control.phase.lease? = some (w, h)) :
    (s.captures.get w.transition.target).phase.inHand = 0 := by
  have hl : (s.captures.get w.transition.target).lease = none := by
    have hc := (ho.custody w.transition.target).counted
    have hb := (s.claims.isClaimed w.transition.target).toNat_le
    rw [length_holders, claimsIn_control ho hp] at hc
    cases hl : (s.captures.get w.transition.target).lease
    case none   => rfl
    case some _ =>
      have := claimsIn_capture hl
      omega
  cases hq : (s.captures.get w.transition.target).phase
  case publish => cases hl ▸ hs _ true (by rw [hq]; rfl)
  all_goals rfl

theorem moveGate_of_movesTo {phase : ControlPhase} (h : phase.movesTo? = some c) :
    ∃ w handle, phase = .moveGate w handle ∧ w.transition.target = c := by
  cases phase
  case moveGate w handle => exact ⟨w, handle, rfl, Option.some.inj h⟩
  all_goals cases h

-- The number of reads so far, and a whole warm-up, are behind the frames that are shown after a
-- switch.
theorem numbering_of_moves (hn : s.Numbering c n floor) (ho : Owned s)
    (hs : ∀ c, (s.captures.get c).Settled) (he : s.step e = some t)
    (ha : e.action = .thread .control signal) (hp : s.control.phase.movesTo? = some c) :
    t.Numbering c n (n + s.config.switcher.warmupFrames.toNat) := by
  obtain ⟨w, h, hw, rfl⟩ := moveGate_of_movesTo hp
  have hi := inHand_of_switch ho hs (by rw [hw]; rfl : s.control.phase.lease? = some (w, h))
  rw [step, ha] at he
  cases controlStep_cases he
  case moves hq =>
    cases hw.symm.trans hq
    refine ⟨hn.sequence, Nat.le_refl _, fun _ => ?_⟩
    exact Nat.le_of_eq (congrArg (n + s.config.switcher.warmupFrames.toNat + ·) hi)
  all_goals cases hw.symm.trans ‹s.control.phase = _›

theorem isReadOf_of_ne {action : Action} (h : ∀ signal, action ≠ .thread (.capture c) signal) :
    action.isReadOf c = false := by
  unfold Action.isReadOf
  split
  case h_1 => exact decide_eq_false (by rintro rfl; exact h _ rfl)
  case h_2 => rfl

-- The others move the gate, but for a camera that is not active they do nothing to it.
theorem counts_of_others (he : s.step e = some t)
    (ha : ∀ signal, e.action ≠ .thread (.capture c) signal) (ho : Owned s)
    (hs : ∀ c, (s.captures.get c).Settled) (h : s.Numbering c n floor) :
    s.Counts c e t n floor := by
  have hx : (t.captures.get c).sequence = (s.captures.get c).sequence ∧
      (t.captures.get c).phase.inHand ≤ (s.captures.get c).phase.inHand := by
    obtain hx | ⟨_, hx⟩ | ⟨hn, hx⟩ := (step_tells he).captures ha
    · rw [hx]; exact ⟨rfl, Nat.le_refl _⟩
    · rw [hx]; exact ⟨rfl, Nat.zero_le _⟩
    · rw [hn, hx]; exact ⟨rfl, Nat.zero_le _⟩
  have hc := (step_tells he).config
  refine .nothing (fun frame hn => ?_) (isReadOf_of_ne ha)
    ⟨hx.1.trans h.sequence, hc ▸ h.floor_le, fun hg => ?_⟩
  · have ⟨⟨signal, hs⟩, _⟩ := shown_cases hn
    exact ha signal hs
  · have same (hw : t.gate.active = s.gate.active ∧ t.gate.warmupLeft = s.gate.warmupLeft) :
        floor + (t.captures.get c).phase.inHand ≤ n + t.gate.warmupLeft.toNat := by
      have hf := h.active (hw.1 ▸ hg)
      rw [hw.2]
      omega
    have ht : t.gate = (s.outlet.visited (s.visit? e)).gate :=
      congrArg Outlet.gate (step_tells he).outlet
    cases hv : s.visit? e
    case none => exact same (by rw [ht, hv]; exact ⟨rfl, rfl⟩)
    case some visit =>
      rw [hv] at ht
      cases visits_of_visit hv
      case looks | publishes | closes | reads => exact same (by rw [ht]; exact ⟨rfl, rfl⟩)
      -- While the camera is active, nothing comes of what the other one offers.
      case offers d signal image luma hd hp =>
        have hne : d ≠ c := by
          rintro rfl
          exact ha signal hd
        have hact : s.gate.active = c := by
          rw [ht] at hg
          exact Gate.publish_gate.2.symm.trans hg
        exact same (by
          rw [ht]
          exact ⟨Gate.publish_gate.2, congrArg _ (Gate.publish_of_ne (hact ▸ hne))⟩)
      case moves w handle signal hd hp =>
        have hw : w.transition.target = c := by
          rw [ht] at hg
          exact hg
        subst hw
        have hm := (numbering_of_moves h ho hs he hd (by rw [hp]; rfl)).active hg
        have := h.floor_le
        omega

theorem counts_of_step (he : s.step e = some t) (ho : Owned s)
    (hs : ∀ c, (s.captures.get c).Settled) (h : s.Numbering c n floor) :
    s.Counts c e t n floor := by
  by_cases ha : ∃ signal, e.action = .thread (.capture c) signal
  case neg => exact counts_of_others he (fun signal hn => ha ⟨signal, hn⟩) ho hs h
  case pos =>
    have ⟨signal, ha⟩ := ha
    refine counts_of_captureStep ?_ ha h
    rw [step, ha] at he
    exact he

variable {jpeg : JpegDecoder} {config : Config} {frames : FrameChannel}
         {detections : DetectionChannel} {events : List Event} {last : Nat}

-- The frames of a camera bear numbers that its thread has counted, each a later one than the one
-- before.
structure Numbered (c : Camera) (shown : List Frame) (floor n : Nat) (ns : List Nat) : Prop where
  camera   : ∀ frame ∈ shown, frame.camera = c
  sequence : shown.map (·.sequence) = ns.map .ofNat
  above    : (floor :: ns).Pairwise (· < ·)
  le_reads : ∀ k ∈ ns, k ≤ n

namespace Numbered

variable {frame : Frame} {shown : List Frame} {ns : List Nat}

theorem nil : Numbered c [] floor n [] :=
  ⟨nofun, rfl, List.pairwise_singleton .., nofun⟩

theorem cons (h : Numbered c shown n last ns) (hc : frame.camera = c)
    (hs : frame.sequence = .ofNat n) (hf : floor < n) (hl : n ≤ last) :
    Numbered c (frame :: shown) floor last (n :: ns) where
  camera   := List.forall_mem_cons.mpr ⟨hc, h.camera⟩
  sequence := by rw [List.map_cons, List.map_cons, hs, h.sequence]
  above    := by
    refine List.pairwise_cons.mpr ⟨fun k hk => ?_, h.above⟩
    obtain rfl | hk := List.mem_cons.mp hk
    · exact hf
    · exact Nat.lt_trans hf (List.rel_of_pairwise_cons h.above hk)
  le_reads := List.forall_mem_cons.mpr ⟨hl, h.le_reads⟩

-- As long as the numbers do not start over, they tell their order.
theorem pairwise (h : Numbered c shown floor n ns) (hn : n < 2 ^ 64) :
    (shown.map (·.sequence)).Pairwise (· < ·) := by
  rw [h.sequence]
  refine List.pairwise_map.mpr ((List.pairwise_cons.mp h.above).2.imp_of_mem fun ha hb hlt => ?_)
  exact (UInt64.ofNat_lt_iff_lt (Nat.lt_of_le_of_lt (h.le_reads _ ha) hn)
    (Nat.lt_of_le_of_lt (h.le_reads _ hb) hn)).mpr hlt

theorem lt_sequence (h : Numbered c shown floor n ns) (hn : n < 2 ^ 64) :
    ∀ frame ∈ shown, floor < frame.sequence.toNat := by
  intro frame hf
  have hm : frame.sequence ∈ ns.map .ofNat := h.sequence ▸ List.mem_map_of_mem hf
  obtain ⟨k, hk, hs⟩ := List.mem_map.mp hm
  rw [← hs, UInt64.toNat_ofNat_of_lt' (Nat.lt_of_le_of_lt (h.le_reads k hk) hn)]
  exact List.rel_of_pairwise_cons h.above hk

end Numbered

theorem shownOf_cons (he : s.step e = some t) : s.shownOf c (e :: events) =
    ((s.shown? e).toList.filter fun entry => entry.1 = c).map (·.2) ++ t.shownOf c events := by
  rw [shownOf, shown, he]
  dsimp only
  rw [List.filter_append, List.map_append]
  rfl

theorem run_numbered (hs : Reachable (.new jpeg config frames detections) s)
    (ht : s.run events = some t) (h : s.Numbering c n floor) :
    (∃ ns, Numbered c (s.shownOf c events) floor (n + reads c events) ns) ∧
    ∃ last, t.Numbering c (n + reads c events) last := by
  induction events generalizing s n floor
  case nil =>
    cases ht
    exact ⟨⟨[], .nil⟩, floor, h⟩
  case cons e events ih =>
    have ⟨u, he, ht⟩ := run_cons ht
    have none (hn : ∀ frame, s.shown? e ≠ some (c, frame)) :
        s.shownOf c (e :: events) = u.shownOf c events := by
      rw [shownOf_cons he]
      cases hd : s.shown? e
      case none => rfl
      case some entry =>
        have hc : entry.1 ≠ c := fun hc => hn entry.2 (by rw [hd, ← hc])
        simp [hc]
    cases counts_of_step he (owned_of_reachable hs) (settled_of_reachable hs) h
    case shows frame hd hc hq hlt hr hu =>
      have hk : reads c (e :: events) = reads c events := List.countP_cons_of_neg (by simp [hr])
      have ⟨⟨ns, hns⟩, hlast⟩ := ih (hs.step he) ht hu
      rw [hk]
      refine ⟨⟨n :: ns, ?_⟩, hlast⟩
      rw [shownOf_cons he, hd]
      simpa using hns.cons hc hq hlt (Nat.le_add_right ..)
    case reads hn hr hu =>
      have hk : reads c (e :: events) = reads c events + 1 := List.countP_cons_of_pos (by simp [hr])
      rw [hk, none hn, Nat.add_comm (reads c events), ← Nat.add_assoc]
      exact ih (hs.step he) ht hu
    case nothing hn hr hu =>
      have hk : reads c (e :: events) = reads c events := List.countP_cons_of_neg (by simp [hr])
      rw [hk, none hn]
      exact ih (hs.step he) ht hu

theorem Numbering.new : (State.new jpeg config frames detections).Numbering c 0 0 where
  sequence := by cases c <;> rfl
  floor_le := Nat.zero_le _
  active   := fun _ => by
    have hi : ((State.new jpeg config frames detections).captures.get c).phase.inHand = 0 := by
      cases c <;> rfl
    rw [hi]
    exact Nat.zero_le _

-- After the gate has moved to the camera, all its frames are beyond the warm-up.
theorem numbered_after_switch {before after : List Event}
    (hs : (State.new jpeg config frames detections).run before = some s) (he : s.step e = some t)
    (ha : e.action = .thread .control signal) (hp : s.control.phase.movesTo? = some c)
    (hu : t.run after = some u) : ∃ ns, Numbered c (t.shownOf c after)
      (reads c before + config.switcher.warmupFrames.toNat)
    (reads c (before ++ e :: after)) ns := by
  have ⟨_, last, hn⟩ := run_numbered .start hs (.new (c := c))
  have hrs := Reachable.run .start hs
  have hm := numbering_of_moves hn (owned_of_reachable hrs) (settled_of_reachable hrs) he ha hp
  have ⟨hns, _⟩ := run_numbered (hrs.step he) hu hm
  have hk : reads c (before ++ e :: after) = reads c before + reads c after := by
    have hr : e.action.isReadOf c = false := by rw [ha]; rfl
    rw [reads, List.countP_append, List.countP_cons_of_neg (by simp [hr])]
    rfl
  rw [config_of_reachable hrs] at hns
  rw [hk]
  simpa using hns

-- A step shows its frame, and what was shown last if it has none.
theorem shows_of_step {last : Option Frame} (he : s.step e = some t) (h : s.frames.Shows last) :
    t.frames.Shows (((s.shown? e).map (·.2)).or last) := by
  have ht : t.frames = (s.outlet.visited (s.visit? e)).frames :=
    congrArg Outlet.frames (step_tells he).outlet
  cases hv : s.visit? e
  case none =>
    rw [hv] at ht
    rw [show s.shown? e = none by rw [shown?, hv], ht]
    exact h
  case some visit =>
    rw [hv] at ht
    cases visits_of_visit hv
    case looks | publishes | moves | closes | reads =>
      rw [show s.shown? e = none by rw [shown?, hv], ht]
      exact h
    case offers c signal image luma _ _ =>
      rw [shown?, hv]
      dsimp only
      obtain ⟨hw, hf⟩ | ⟨ha, hf⟩ := s.gate.publish_cases c
        ⟨image, c, (s.captures.get c).sequence, e.clock.wall⟩ s.frames
      case inl =>
        split
        case h_1 hn => exact absurd hn (hw _)
        case h_2    => exact (ht.trans hf) ▸ h
      case inr =>
        rw [ht.trans hf, ha]
        obtain ⟨⟨number, hk⟩, hs⟩ | ⟨⟨e, hk⟩, hs⟩ := h.publish
          ⟨image, c, (s.captures.get c).sequence, e.clock.wall⟩
        · rw [hk]; exact hs
        · rw [hk]; exact hs

theorem run_shows {last : Option Frame} (ht : s.run events = some t) (h : s.frames.Shows last) :
    t.frames.Shows (((s.shown events).getLast?.map (·.2)).or last) := by
  induction events generalizing s last
  case nil => cases ht; exact h
  case cons e events ih =>
    have ⟨u, he, ht⟩ := run_cons ht
    have hl : ((s.shown (e :: events)).getLast?.map (·.2)).or last =
        ((u.shown events).getLast?.map (·.2)).or (((s.shown? e).map (·.2)).or last) := by
      rw [shown, he]
      dsimp only
      rw [List.getLast?_append, Option.map_or, Option.or_assoc]
      cases s.shown? e <;> rfl
    rw [hl]
    exact ih ht (shows_of_step he h)

-- A reader gets the camera and the number of the frame that was shown last.
theorem newest_of_shows {last : Option Frame} {newest : Published Frame} (h : frames.Shows last)
    (hn : frames.latest.1 = some newest) : ∃ frame, last = some frame ∧
      newest.value.camera = frame.camera ∧ newest.value.sequence = frame.sequence := by
  have ⟨frame, hl, hv⟩ := Backend.Shows.latest h hn
  obtain hv | hv := hv
  case inl => exact ⟨frame, hl, by rw [hv], by rw [hv]⟩
  case inr =>
    have hd : Frame.decode (frame.encode ++ []) = .ok frame.reread := frame.decode_encode_append []
    rw [List.append_nil] at hd
    have hv : frame.reread = newest.value := Except.ok.inj (hd.symm.trans hv)
    exact ⟨frame, hl, by rw [← hv]; rfl, by rw [← hv]; rfl⟩

-- A camera's frames are shown under numbers that its thread has counted, each a later one than the
-- one before; after every switch to it they are beyond the images that it had read before and those
-- of the warm-up. As long as the numbers do not start over, they say so too. What a reader gets is
-- always the frame that was shown last.
theorem sequences_increase {shelf shelf' : Shelf} {made : Created}
    (hc : create jpeg config shelf = (.ok made, shelf')) (ht : made.state.run events = some t)
    (c : Camera) :
    (∃ ns, Numbered c (made.state.shownOf c events) 0 (reads c events) ns) ∧
    (reads c events < 2 ^ 64 →
      ((made.state.shownOf c events).map (·.sequence)).Pairwise (· < ·)) ∧
    (∀ before e after s u signal, events = before ++ e :: after →
      made.state.run before = some s → s.step e = some u →
      e.action = .thread .control signal → s.control.phase.movesTo? = some c →
      (∃ ns, Numbered c (u.shownOf c after)
        (reads c before + config.switcher.warmupFrames.toNat) (reads c events) ns) ∧
      (reads c events < 2 ^ 64 → ∀ frame ∈ u.shownOf c after,
        reads c before + config.switcher.warmupFrames.toNat < frame.sequence.toNat)) ∧
    (∀ newest, t.frames.latest.1 = some newest → ∃ d frame,
      (made.state.shown events).getLast? = some (d, frame) ∧ newest.value.camera = d ∧
      newest.value.sequence = frame.sequence) := by
  have ⟨_, _, _, hm, hf, _⟩ := mounted_of_create hc
  rw [hm] at ht ⊢
  have numbered (d : Camera) := (run_numbered .start ht (.new (c := d))).1
  simp only [Nat.zero_add] at numbered
  have ⟨ns, hns⟩ := numbered c
  refine ⟨⟨ns, hns⟩, hns.pairwise, ?_, fun newest hn => ?_⟩
  · rintro before e after s u signal rfl hs he ha hp
    have ⟨u', hu, ht⟩ := run_cons (run_of_append hs ht)
    cases he.symm.trans hu
    have ⟨ns, hns⟩ := numbered_after_switch hs he ha hp ht
    exact ⟨⟨ns, hns⟩, hns.lt_sequence⟩
  · have hs := run_shows ht (Mounted.shows_of_configured hf)
    have ⟨frame, hl, hcam, hseq⟩ := newest_of_shows hs hn
    rw [Option.or_none] at hl
    have ⟨⟨d, _⟩, hl, rfl⟩ := Option.map_eq_some_iff.mp hl
    have ⟨_, hd⟩ := numbered d
    have hmem := List.mem_of_getLast? hl
    refine ⟨d, _, hl, hcam.trans (hd.camera _ ?_), hseq⟩
    exact List.mem_map_of_mem (List.mem_filter.mpr ⟨hmem, decide_eq_true rfl⟩)

-- The day camera shows one image and has read another one when the night camera takes over; then
-- the gate moves back, and of the next four images the last one is shown.
def switchedBack : List Event × Event × List Event :=
  let event (action : Action) : Event := ⟨⟨.start, ⟨0⟩⟩, action⟩
  let day (signal : Signal) := event (.thread (.capture .day) signal)
  let control (signal : Signal) := event (.thread .control signal)
  let read := day (.read (.ok ⟨[1, 2, 3, 4], 2, 2, .gray8, none⟩))
  let image := [read, day .go, day .timeUp] ++ List.replicate 3 (day .go)
  let opens (c : Camera) := [event (.command ⟨.manual, some c, none⟩), event .request]
    ++ List.replicate 7 (control .go) ++ [control .opened, control .go]
  ([event .start] ++ List.replicate 4 (day .go) ++ [day .opened] ++ image ++ [read]
      ++ List.replicate 5 (control .go) ++ [control (.refused (.reading "busy"))]
      ++ List.replicate 3 (control .go) ++ [control .timeUp] ++ opens .night
      ++ List.replicate 3 (control .go) ++ [day .go, day .timeUp] ++ List.replicate 5 (day .go)
      ++ opens .day,
    control .go,
    List.replicate 2 (control .go) ++ [day .timeUp] ++ List.replicate 3 (day .go)
      ++ image ++ image ++ image ++ image)

theorem sequences_increase_switched_back : ∃ made s u t,
    create .blind {} .empty = (.ok made, .empty) ∧ made.state.run switchedBack.1 = some s ∧
    s.step switchedBack.2.1 = some u ∧ u.run switchedBack.2.2 = some t ∧
    reads .day switchedBack.1 = 2 ∧ (made.state.shownOf .day switchedBack.1).length = 1 ∧
    (u.shownOf .day switchedBack.2.2).map (·.sequence) = [6] ∧
    (∀ frame ∈ u.shownOf .day switchedBack.2.2, 2 + 3 < frame.sequence.toNat) := by
  let made : Created := ⟨.new .blind {} (.inProcess (some 3110440))
    (.inProcess (some 264)), none, none⟩
  have hc : create .blind {} .empty = (.ok made, .empty) := by rfl
  have hr : ((made.state.run switchedBack.1).bind fun s => (s.step switchedBack.2.1).bind fun u =>
      (u.run switchedBack.2.2).map fun _ =>
        (s.control.phase.movesTo?, (u.shownOf .day switchedBack.2.2).map (·.sequence))) =
      some (some .day, [6]) := by
    decide +kernel
  have hn : reads .day switchedBack.1 = 2 := by decide
  have hl : (made.state.shownOf .day switchedBack.1).length = 1 := by decide +kernel
  obtain ⟨s, hs, hr⟩ := Option.bind_eq_some_iff.mp hr
  obtain ⟨u, hu, hr⟩ := Option.bind_eq_some_iff.mp hr
  obtain ⟨t, ht, hr⟩ := Option.map_eq_some_iff.mp hr
  obtain ⟨hp, hq⟩ := Prod.mk.inj hr
  have hrun := run_append hs (run_append (run_single hu) ht)
  obtain ⟨_, _, hafter, _⟩ := sequences_increase hc hrun .day
  obtain ⟨_, hlt⟩ := hafter _ _ _ s u _ rfl hs hu rfl hp
  rw [hn] at hlt
  exact ⟨made, s, u, t, hc, hs, hu, ht, hn, hl, hq, hlt (by decide +kernel)⟩

end State

end Pipeline

end DayNight
