import DayNight.Pipeline.Creation
import DayNight.Proofs.Channel.Numbers
import DayNight.Proofs.Pipeline.Events
import DayNight.Proofs.Pipeline.Telling

namespace DayNight

-- What has got through the gate: a frame, under its number, or a detection.
inductive Publication
  | frame (number : UInt64)
  | detection (detection : Detection)

namespace Publication

def number? : Publication → Option UInt64
  | frame number => some number
  | detection _ => none

-- The numbers of the frames.
def numbers (ps : List Publication) : List UInt64 := ps.filterMap number?

-- What is published when there were `frames` frames already, and the last detection was made from
-- frame `last`: frames are numbered one after the other, and each detection is made from a frame
-- after the last one and not after the newest.
def Ordered : Nat → Nat → List Publication → Prop
  | _, _, [] => True
  | frames, last, .frame number :: ps =>
    number = .ofNat (frames + 1) ∧ Ordered (frames + 1) last ps
  | frames, last, .detection d :: ps =>
    ∃ origin, last < origin ∧ origin ≤ frames ∧ d.frameSequence = .ofNat origin ∧
      Ordered frames origin ps

namespace Ordered

variable {frames last : Nat} {ps before after : List Publication} {d : Detection}

theorem numbers_eq (h : Ordered frames last ps) :
    numbers ps = (List.range' (frames + 1) (numbers ps).length).map .ofNat := by
  induction ps generalizing frames last
  case nil => rfl
  case cons p ps ih =>
    cases p
    case frame number =>
      obtain ⟨rfl, h⟩ := h
      have hn : numbers (.frame (.ofNat (frames + 1)) :: ps) =
          .ofNat (frames + 1) :: numbers ps := rfl
      rw [hn, List.length_cons, List.range'_succ, List.map_cons, ← ih h]
    case detection d =>
      have ⟨_, _, _, _, h⟩ := h
      exact ih h

theorem append (h : Ordered frames last (before ++ after)) : Ordered frames last before ∧
    ∃ n, Ordered (frames + (numbers before).length) n after := by
  induction before generalizing frames last
  case nil => exact ⟨trivial, last, h⟩
  case cons p before ih =>
    cases p
    case frame number =>
      have ⟨hb, n, ha⟩ := ih h.2
      have hk : (numbers (.frame number :: before)).length = (numbers before).length + 1 := rfl
      exact ⟨⟨h.1, hb⟩, n, by rwa [hk, Nat.add_comm (numbers before).length, ← Nat.add_assoc]⟩
    case detection d =>
      have ⟨origin, hlt, hle, hd, h⟩ := h
      have ⟨hb, ha⟩ := ih h
      exact ⟨⟨origin, hlt, hle, hd, hb⟩, ha⟩

-- A detection is made from a frame before it.
theorem origin (h : Ordered 0 last (before ++ .detection d :: after)) : ∃ n, 0 < n ∧
    n ≤ (numbers before).length ∧ d.frameSequence = .ofNat n ∧
    d.frameSequence ∈ numbers before := by
  have ⟨hb, _, n, hlt, hle, hd, _⟩ := h.append
  rw [Nat.zero_add] at hle
  refine ⟨n, Nat.lt_of_le_of_lt (Nat.zero_le _) hlt, hle, hd, ?_⟩
  rw [hb.numbers_eq, hd]
  exact List.mem_map_of_mem (List.mem_range'_1.mpr (by omega))

end Ordered

end Publication

-- A frame is withheld, or the channel says what becomes of it.
theorem Gate.publish_cases (g : Gate) (camera : Camera) (frame : Frame) (frames : FrameChannel) :
    ((∀ number, (g.publish camera frame frames).1 ≠ .ok (.published number)) ∧
      (g.publish camera frame frames).2.2 = frames) ∨
    ((g.publish camera frame frames).1 = (frames.publish frame).1.map .published ∧
      (g.publish camera frame frames).2.2 = (frames.publish frame).2) := by
  unfold publish
  split
  case isTrue => exact .inl ⟨nofun, rfl⟩
  case isFalse =>
    split
    case isTrue => exact .inl ⟨nofun, rfl⟩
    case isFalse =>
      split
      case isTrue  => exact .inl ⟨nofun, rfl⟩
      case isFalse => exact .inr ⟨rfl, rfl⟩

namespace Outlet

variable {o : Outlet} {n : Nat}

-- What has got through the gate, by the answer.
def Action.publication? : Action → Answer → Option Publication
  | offer _ _, .offered (.ok (.published number)) => some (.frame number)
  | publishFrame _, .published (.ok (some number)) => some (.frame number)
  | publish d, .published (.ok (some _)) => some (.detection d)
  | _, _ => none

def publication? (o : Outlet) : Visit → Option Publication
  | .act action => action.publication? (o.step action).1
  | _ => none

-- A visit publishes a frame, under the next number, or leaves the frames as they are.
inductive Passes (o : Outlet) (n : Nat) (visit : Visit) : Prop
  | frame : o.publication? visit = some (.frame (.ofNat (n + 1))) →
    (o.visited (some visit)).frames.Numbered (n + 1) → Passes o n visit
  | other : (∀ number, o.publication? visit ≠ some (.frame number)) →
    (o.visited (some visit)).frames.Numbered n → Passes o n visit

-- The channel numbers a frame that comes to it, unless it refuses it.
theorem passes_of_publish (h : o.frames.Numbered n) {visit : Visit} (frame : Frame)
    (hp : o.publication? visit = (o.frames.publish frame).1.toOption.map .frame)
    (hv : (o.visited (some visit)).frames = (o.frames.publish frame).2) : o.Passes n visit := by
  obtain ⟨ha, hk⟩ | ⟨⟨e, ha⟩, hk⟩ := h.publish frame
  · exact .frame (by rw [hp, ha]; rfl) (by rwa [hv])
  · exact .other (by rw [hp, ha]; nofun) (by rwa [hv])

theorem passes (h : o.frames.Numbered n) (visit : Visit) : o.Passes n visit := by
  cases visit
  case readFrame | readDetection => exact .other nofun h
  case act action =>
    cases action
    case switchTo | close => exact .other nofun h
    case publish d =>
      refine .other (fun number hn => ?_) h
      simp only [publication?, Action.publication?] at hn
      split at hn <;> simp_all
    case offer camera frame =>
      obtain ⟨hw, hc⟩ | ⟨ha, hc⟩ := o.gate.publish_cases camera frame o.frames
      case inl =>
        have hv : (o.visited (some (.act (.offer camera frame)))).frames = o.frames := hc
        refine .other (fun number hn => ?_) (by rwa [hv])
        simp only [publication?, Action.publication?] at hn
        split at hn
        case h_1 hp => exact hw _ (Answer.offered.inj hp)
        all_goals simp_all
      case inr =>
        refine passes_of_publish h frame ?_ hc
        simp only [publication?, step, ha]
        cases (o.frames.publish frame).1 <;> rfl
    case publishFrame frame =>
      cases ho : o.gate.isOpen
      case false =>
        refine .other ?_ (by simpa [visited, step, Gate.publishIfOpen, ho] using h)
        simp [publication?, step, Gate.publishIfOpen, ho, Action.publication?]
      case true =>
        refine passes_of_publish h frame ?_ (by simp [visited, step, Gate.publishIfOpen, ho])
        simp only [publication?, step, Gate.publishIfOpen, ho]
        cases (o.frames.publish frame).1 <;> rfl

end Outlet

namespace Pipeline

-- The number of the frame that the thread works on.
def DetectorPhase.sequence? : DetectorPhase → Option UInt64
  | infer frame => some frame.sequence
  | publish _ sequence => some sequence
  | _ => none

-- The thread has last looked at frame `seen` of `frames`, and it works on none that is not newer
-- than that of the last detection.
structure DetectorThread.Sees (own : DetectorThread) (frames last seen : Nat) : Prop where
  lastSeen  : own.lastSeen = .ofNat seen
  le_frames : seen ≤ frames
  last_le   : last ≤ seen
  works     : ∀ sequence, own.phase.sequence? = some sequence →
    sequence = .ofNat seen ∧ last < seen

theorem DetectorThread.Sees.goTo {own : DetectorThread} {frames last seen : Nat}
    (h : own.Sees frames last seen) {phase : DetectorPhase}
    (hp : ∀ sequence, phase.sequence? = some sequence → own.phase.sequence? = some sequence) :
    (own.goTo phase).Sees frames last seen :=
  ⟨h.lastSeen, h.le_frames, h.last_le, fun q hq => h.works q (hp q hq)⟩

namespace State

variable {s t : State} {clock : Clock} {e : Event} {n last seen : Nat}

theorem DetectorStep.stillSees (hs : s.DetectorStep clock t) (hn : s.frames.Numbered n)
    (h : s.detector.Sees n last seen) : ∃ next, t.detector.Sees n last next := by
  cases hs
  case sees frame hp hl hne =>
    have ⟨hq, _⟩ := Backend.Numbered.latest hn hl
    have hlt : seen < n := by
      refine Nat.lt_of_le_of_ne h.le_frames ?_
      rintro rfl
      exact hne (hq.trans h.lastSeen.symm)
    refine ⟨n, hq, Nat.le_refl n, Nat.le_of_lt (Nat.lt_of_le_of_lt h.last_le hlt), ?_⟩
    rintro _ ⟨⟩
    exact ⟨hq, Nat.lt_of_le_of_lt h.last_le hlt⟩
  case infers frame boxes hp =>
    exact ⟨seen, h.goTo fun q hq => by rw [hp]; exact hq⟩
  all_goals exact ⟨seen, h.goTo nofun⟩

-- When it publishes what it has found, it is done with the frame.
theorem DetectorStep.published (hs : s.DetectorStep clock t) (h : s.detector.Sees n last seen)
    {boxes : List Box} {sequence : UInt64} (hp : s.detector.phase = .publish boxes sequence) :
    sequence = .ofNat seen ∧ last < seen ∧ t.detector.Sees n seen seen := by
  have ⟨hq, hlt⟩ := h.works sequence (by rw [hp]; rfl)
  refine ⟨hq, hlt, ?_⟩
  cases hs
  case publishes => exact ⟨h.lastSeen, h.le_frames, Nat.le_refl seen, nofun⟩
  case exits hs _ => obtain hs | hs := hs <;> cases hs.symm.trans hp
  all_goals cases hp.symm.trans ‹s.detector.phase = _›

theorem Step.sees (hs : s.Step t) (hn : s.frames.Numbered n)
    (h : s.detector.Sees n last seen) : ∃ next, t.detector.Sees n last next := by
  cases hs
  case starts                  => exact ⟨seen, h.goTo nofun⟩
  case spawnFails hf =>
    refine ⟨seen, ?_⟩
    obtain hd | ⟨_, hd⟩ := withdraw_detector hf
    · exact hd ▸ h
    · exact hd ▸ h.goTo nofun
  case detector hs             => exact hs.stillSees hn h
  case owner hs | capture hs | control hs => cases hs <;> exact ⟨seen, h⟩
  all_goals exact ⟨seen, h⟩

def publication? (s : State) (e : Event) : Option Publication :=
  (s.visit? e).bind s.outlet.publication?

-- Detections come from the detector's thread only, and from the frame that it works on.
theorem detector_of_visit {d : Detection} (h : s.visit? e = some (.act (.publish d))) :
    ∃ signal boxes sequence, e.action = .thread .detector signal ∧
      s.detector.phase = .publish boxes sequence ∧
      d = ⟨Box.keepBest s.config.channels.maxDetections.toNat boxes, e.clock.wall, sequence⟩ := by
  obtain ⟨clock, action⟩ := e
  cases action
  case thread thread signal =>
    cases thread
    case capture c =>
      simp only [visit?] at h
      cases hq : (s.captures.get c).phase <;> rw [hq] at h <;> cases h
    case control =>
      simp only [visit?] at h
      cases hq : s.control.phase <;> rw [hq] at h <;> cases h
    case detector =>
      simp only [visit?] at h
      cases hq : s.detector.phase
      case publish boxes sequence =>
        rw [hq] at h
        cases h
        exact ⟨signal, boxes, sequence, rfl, rfl, rfl⟩
      all_goals rw [hq] at h; cases h
  all_goals cases h

-- A pipeline is made with a channel for its frames and one for its detections.
theorem mounted_of_create {jpeg : JpegDecoder} {config : Config} {shelf shelf' : Shelf}
    {made : Created} (h : create jpeg config shelf = (.ok made, shelf')) :
    ∃ frames detections between,
      made.state = .new jpeg config frames.channel detections.channel ∧
      Mounted.frames config.channels shelf = (.ok frames, between) ∧
      Mounted.detections config.channels between = (.ok detections, shelf') := by
  unfold create at h
  split at h
  case h_1 => cases h
  case h_2 =>
    split at h
    case h_1 => cases h
    case h_2 hf =>
      split at h
      case h_1 => cases h
      case h_2 hd =>
        cases h
        exact ⟨_, _, _, rfl, hf, hd⟩

end State

end Pipeline

end DayNight
