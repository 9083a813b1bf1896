import DayNight.Proofs.Channel.Capacity
import DayNight.Proofs.Detection.Ranking
import DayNight.Proofs.Pipeline.Detections

namespace DayNight

theorem Backend.Bounded.publish {α : Type} [Record α] {b : Backend α} {capacity : UInt64}
    (h : b.Bounded capacity) (value : α) : (b.publish value).2.Bounded capacity := by
  by_cases hv : capacity.toNat < Record.encodedLength value
  case pos => rw [h.publish_of_lt hv]; exact h
  case neg =>
    obtain ⟨_, _, hp, hb⟩ := h.publish_of_le (Nat.not_lt.mp hv)
    rw [hp]
    exact hb

theorem Channel.backend_publish {α : Type} [Record α] (c : Channel α) (value : α) :
    (c.publish value).2.backend = (c.backend.publish value).2 := by
  unfold publish
  split
  all_goals rename_i h; rw [h]

namespace Pipeline

-- The boxes that the thread is about to hand to the gate.
def DetectorPhase.boxes? : DetectorPhase → Option (List Box)
  | publish boxes _ => some boxes
  | _ => none

def Signal.boxes? : Signal → Option (List Box)
  | inferred (.ok boxes) => some boxes
  | _ => none

def Event.detector? (e : Event) : Option Signal :=
  match e.action with
  | .thread .detector signal => some signal
  | _ => none

-- What the detector has found, if nothing has happened to its thread since.
def found? (events : List Event) : Option (List Box) :=
  (events.filterMap Event.detector?).getLast?.bind Signal.boxes?

section

variable {e : Event} {past : List Event}

theorem found?_concat_of_detector {signal : Signal} (h : e.detector? = some signal) :
    found? (past ++ [e]) = signal.boxes? := by
  rw [found?, List.filterMap_append, List.filterMap_cons_some h, List.filterMap_nil,
    List.getLast?_concat]
  rfl

theorem found?_concat_of_other (h : e.detector? = none) :
    found? (past ++ [e]) = found? past := by
  rw [found?, List.filterMap_append, List.filterMap_cons_none h, List.filterMap_nil,
    List.append_nil]
  rfl

end

namespace State

variable {s t : State} {e : Event} {clock : Clock} {signal : Signal} {past events : List Event}
         {capacity : UInt64}

theorem boxes_of_detectorStep (h : s.detectorStep clock signal = some t) :
    t.detector.phase.boxes? = signal.boxes? := by
  cases hp : s.detector.phase
  case infer frame =>
    cases signal
    case inferred answer => cases answer <;> simp only [detectorStep, hp] at h <;> cases h <;> rfl
    all_goals simp [detectorStep, hp] at h
  case look =>
    cases signal <;> simp only [detectorStep, hp, reduceCtorEq] at h
    repeat' split at h
    all_goals cases h; rfl
  case notStarted | exited => cases signal <;> simp [detectorStep, hp] at h
  case checkStop | sleep =>
    cases signal <;> simp only [detectorStep, hp, reduceCtorEq] at h
    split at h
    all_goals cases h; rfl
  case publish =>
    cases signal <;> simp only [detectorStep, hp, reduceCtorEq] at h
    cases h
    rfl

-- Whose step it is: the detector's own, the start, whether or not it succeeds, or one that leaves
-- the detector alone.
inductive Detects (s : State) (e : Event) (t : State) : Prop
  | own {signal : Signal} : e.detector? = some signal → s.detectorStep e.clock signal = some t →
    t.owner = s.owner → Detects s e t
  | starts : e.detector? = none → s.owner = .idle → t.owner = .running →
    t.detector = s.detector.goTo .checkStop → Detects s e t
  | withdraws : e.detector? = none → t.owner ≠ .idle → s.detector.phase = .checkStop →
    t.detector = s.detector.goTo .exited → Detects s e t
  | other : e.detector? = none → (t.owner = .idle → s.owner = .idle) →
    t.detector = s.detector → Detects s e t

theorem detects_of_step (h : s.step e = some t) : s.Detects e t := by
  obtain ⟨clock, action⟩ := e
  cases action
  case start =>
    simp only [step, start] at h
    split at h
    case h_1 ho => cases h; exact .starts rfl ho rfl rfl
    case h_2    => cases h
  case spawnFails =>
    obtain ⟨_, hf, rfl⟩ := spawnFails_eq h
    obtain hd | ⟨hp, hd⟩ := withdraw_detector hf
    · exact .other rfl (by simp) hd
    · exact .withdraws rfl (by simp) hp hd
  case beginStop =>
    simp only [step, beginStop] at h
    split at h
    case h_1 => cases h; exact .other rfl (by simp) rfl
    case h_2 => cases h
  case owner => cases ownerStep_cases h <;> exact .other rfl (by simp) rfl
  case thread thread signal =>
    cases thread
    case capture  => cases captureStep_cases h <;> exact .other rfl id rfl
    case control  => cases controlStep_cases h <;> exact .other rfl id rfl
    case detector => cases detectorStep_cases h <;> exact .own rfl h rfl
  case command =>
    obtain ⟨_, rfl⟩ := command_eq h
    exact .other rfl id rfl
  case request =>
    simp only [step, request] at h
    split at h
    case h_1 => cases h; exact .other rfl id rfl
    case h_2 => cases h
  case readFrame | readDetection => cases h; exact .other rfl id rfl
  case arriveLate | refuseLate | closeStray =>
    obtain ⟨_, _, rfl⟩ := Option.map_eq_some_iff.mp h
    exact .other rfl id rfl

-- The thread is where the last of its events has left it.
structure Awaits (s : State) (past : List Event) : Prop where
  boxes : s.detector.phase.boxes? = found? past
  idle  : s.owner = .idle → s.detector.phase = .notStarted

theorem Awaits.step (h : s.Awaits past) (he : s.step e = some t) : t.Awaits (past ++ [e]) := by
  cases detects_of_step he
  case own signal hd hs ho =>
    refine ⟨(boxes_of_detectorStep hs).trans (found?_concat_of_detector hd).symm, fun hi => ?_⟩
    have hp := h.idle (ho ▸ hi)
    cases signal <;> simp [detectorStep, hp] at hs
  case starts hd hi hr ht =>
    refine ⟨?_, fun ho => OwnerPhase.noConfusion (hr.symm.trans ho)⟩
    rw [ht, found?_concat_of_other hd, ← h.boxes, h.idle hi]
    rfl
  case withdraws hd ho hp ht =>
    refine ⟨?_, fun hi => absurd hi ho⟩
    rw [ht, found?_concat_of_other hd, ← h.boxes, hp]
    rfl
  case other hd ho ht =>
    refine ⟨?_, fun hi => ht ▸ h.idle (ho hi)⟩
    rw [ht, found?_concat_of_other hd]
    exact h.boxes

theorem Awaits.run (h : s.Awaits past) (ht : s.run events = some t) :
    t.Awaits (past ++ events) := by
  induction events generalizing s past
  case nil => cases ht; simpa using h
  case cons e events ih =>
    have ⟨u, he, ht⟩ := run_cons ht
    simpa using ih (h.step he) ht

theorem Awaits.new {jpeg : JpegDecoder} {config : Config} {frames : FrameChannel}
    {detections : DetectionChannel} : (State.new jpeg config frames detections).Awaits [] :=
  ⟨rfl, fun _ => rfl⟩

theorem Awaits.of_visit {d : Detection} (h : s.Awaits past)
    (hv : s.visit? e = some (.act (.publish d))) : ∃ boxes, found? past = some boxes ∧
      d.boxes = Box.keepBest s.config.channels.maxDetections.toNat boxes := by
  obtain ⟨_, boxes, _, _, hp, rfl⟩ := detector_of_visit hv
  exact ⟨boxes, by rw [← h.boxes, hp]; rfl, rfl⟩

-- What the detector has found is what the thread goes to the gate with.
theorem Awaits.visits {boxes : List Box} (h : s.Awaits past) (hf : found? past = some boxes) :
    ∃ d u, s.visit? ⟨clock, .thread .detector .go⟩ = some (.act (.publish d)) ∧
      s.step ⟨clock, .thread .detector .go⟩ = some u ∧
      u.detections = (s.gate.publishIfOpen d s.detections).2 := by
  rw [← h.boxes] at hf
  obtain ⟨sequence, hp⟩ : ∃ sequence, s.detector.phase = .publish boxes sequence := by
    cases hp : s.detector.phase <;> rw [hp] at hf <;> cases hf
    exact ⟨_, rfl⟩
  let d : Detection :=
    ⟨Box.keepBest s.config.channels.maxDetections.toNat boxes, clock.wall, sequence⟩
  refine ⟨d, { s with
    detections := (s.gate.publishIfOpen d s.detections).2 }.setDetector .sleep, ?_, ?_, rfl⟩
  · rw [visit?, hp]
    rfl
  · simp only [State.step, threadStep, detectorStep, hp]
    rfl

-- The pipeline's channel for detections takes records of so many bytes.
def Bounded (s : State) (capacity : UInt64) : Prop := s.detections.backend.Bounded capacity

theorem Bounded.visited {o : Outlet} (h : o.detections.backend.Bounded capacity)
    (visit : Option Outlet.Visit) : (o.visited visit).detections.backend.Bounded capacity := by
  cases visit
  case none => exact h
  case some visit =>
    cases visit
    case readFrame | readDetection => exact h
    case act action =>
      cases action
      case publish d =>
        cases ho : o.gate.isOpen
        case false => simpa [Outlet.visited, Outlet.step, Gate.publishIfOpen, ho] using h
        case true =>
          have hp := h.publish d
          simpa [Outlet.visited, Outlet.step, Gate.publishIfOpen, ho, Channel.backend_publish]
            using hp
      all_goals exact h

theorem Bounded.run (h : s.Bounded capacity) (ht : s.run events = some t) :
    t.Bounded capacity := by
  induction events generalizing s
  case nil => cases ht; exact h
  case cons e events ih =>
    have ⟨u, he, ht⟩ := run_cons ht
    have hu : u.detections = (s.outlet.visited (s.visit? e)).detections :=
      congrArg Outlet.detections (step_tells he).outlet
    refine ih ?_ ht
    rw [Bounded, hu]
    exact visited (o := s.outlet) h (s.visit? e)

theorem Bounded.accepts {d : Detection} (h : s.Bounded capacity)
    (hd : Record.encodedLength d ≤ capacity.toNat) :
    ∃ number, (s.gate.publishIfOpen d s.detections).1 = .ok number := by
  unfold Gate.publishIfOpen
  split
  case isFalse => exact ⟨none, rfl⟩
  case isTrue =>
    obtain ⟨number, _, hp, _⟩ := h.publish_of_le hd
    exact ⟨some number, by rw [Channel.publish, hp]; rfl⟩

theorem published_of_ok {d : Detection} {u : State} {number : Option UInt64}
    (hd : u.detections = (s.gate.publishIfOpen d s.detections).2)
    (hn : (s.gate.publishIfOpen d s.detections).1 = .ok number) :
    if s.gate.isOpen then ∃ number, s.detections.publish d = (.ok number, u.detections)
    else u.detections = s.detections := by
  rw [hd]
  unfold Gate.publishIfOpen at hn ⊢
  split
  case isFalse => rfl
  case isTrue ho =>
    rw [if_pos ho] at hn
    generalize s.detections.publish d = answer at hn ⊢
    obtain ⟨_ | number, _⟩ := answer
    case error => cases hn
    case ok    => exact ⟨number, rfl⟩

-- Of what the detector finds the best boxes go to the gate, and they fit the channel, whatever it
-- has been through.
theorem detections_keep_best {jpeg : JpegDecoder} {config : Config} {shelf shelf' : Shelf}
    {made : Created}
    (hc : create jpeg config shelf = (.ok made, shelf')) (ht : made.state.run events = some t) :
    let limit := config.channels.maxDetections.toNat
    (∀ boxes clock, found? events = some boxes → ∃ d u, Box.IsBest limit boxes d.boxes ∧
      t.visit? ⟨clock, .thread .detector .go⟩ = some (.act (.publish d)) ∧
      t.step ⟨clock, .thread .detector .go⟩ = some u ∧
      if t.gate.isOpen then ∃ number, t.detections.publish d = (.ok number, u.detections)
      else u.detections = t.detections) ∧
    (∀ e d, t.visit? e = some (.act (.publish d)) →
      (∃ boxes, found? events = some boxes ∧ Box.IsBest limit boxes d.boxes) ∧
      (∃ number, (t.gate.publishIfOpen d t.detections).1 = .ok number) ∧
      ∀ (ds : Mounted Detection) (other other' : Shelf),
        Mounted.detections config.channels other = (.ok ds, other') →
        ∀ uses on, ¬ (ds.after uses).Refuses on d) := by
  intro limit
  have ⟨frames, detections, _, hm, _, hd⟩ := mounted_of_create hc
  rw [hm] at ht
  have ha : t.Awaits events := Awaits.new.run ht
  obtain ⟨capacity, hl, hbounded, _⟩ := Mounted.bounded_of_configured hd
  have hb : t.Bounded capacity := Bounded.run (s := .new ..) hbounded ht
  have hcap : capacity.toNat = 24 + limit * 24 := Detection.encodedCapacity_eq_ok.mp hl
  have hlimit : t.config.channels.maxDetections.toNat = limit := by
    rw [config_of_reachable (.run .start ht)]
  have hbest {e : Event} {d : Detection} (hv : t.visit? e = some (.act (.publish d))) :
      ∃ boxes, found? events = some boxes ∧ Box.IsBest limit boxes d.boxes ∧
        Record.encodedLength d ≤ capacity.toNat := by
    obtain ⟨boxes, hf, hkept⟩ := ha.of_visit hv
    have hbest : Box.IsBest limit boxes d.boxes := hkept ▸ hlimit ▸ Box.keepBest_isBest ..
    have hlen : d.boxes.length ≤ limit := hbest.length ▸ Nat.min_le_right ..
    exact ⟨boxes, hf, hbest, hcap ▸ Nat.add_le_add_left (Nat.mul_le_mul_right 24 hlen) 24⟩
  refine ⟨fun boxes clock hf => ?_, fun e d hv => ?_⟩
  · obtain ⟨d, u, hv, hu, hd⟩ := ha.visits hf
    obtain ⟨_, hf', hkept, hfits⟩ := hbest hv
    cases hf.symm.trans hf'
    obtain ⟨number, hn⟩ := hb.accepts hfits
    exact ⟨d, u, hkept, hv, hu, published_of_ok hd hn⟩
  · obtain ⟨boxes, hf, hkept, hfits⟩ := hbest hv
    refine ⟨⟨boxes, hf, hkept⟩, hb.accepts hfits, fun ds other other' ho uses on hr => ?_⟩
    obtain ⟨_, hl', hds, _⟩ := Mounted.bounded_of_configured ho
    cases hl.symm.trans hl'
    exact absurd ((hds.after uses).refuses_iff.mp hr) (Nat.not_lt.mpr hfits)

-- There is room for two boxes.
def sparing : Config := { channels := { maxDetections := 2 } }

-- A box below all numbers, two that are as likely as not, and one of no number.
def fourBoxes : List Box :=
  let box (classId bits : UInt32) : Box := ⟨classId, ⟨bits⟩, 0, 0, 1, 1⟩
  [box 1 0xFF800000, box 2 0x3F000000, box 3 0x3F000000, box 4 0x7FC00000]

-- The day camera's first image is shown, and the detector finds these boxes in it.
def finding (boxes : List Box) : List Event :=
  let event (action : Action) : Event := ⟨⟨.start, ⟨0⟩⟩, action⟩
  let day (signal : Signal) := event (.thread (.capture .day) signal)
  let detector (signal : Signal) := event (.thread .detector signal)
  [event .start] ++ List.replicate 4 (day .go) ++ [day .opened,
    day (.read (.ok ⟨[1, 2, 3, 4], 2, 2, .gray8, none⟩)), day .go, detector .go, detector .go,
    detector (.inferred (.ok boxes))]

theorem detections_keep_two : ∃ made t e d, create .blind sparing .empty = (.ok made, .empty) ∧
    made.state.run (finding fourBoxes) = some t ∧ t.visit? e = some (.act (.publish d)) ∧
    d.boxes.map (·.classId) = [4, 2] ∧ Box.IsBest 2 fourBoxes d.boxes ∧
    ∃ number, (t.gate.publishIfOpen d t.detections).1 = .ok number := by
  let made : Created := ⟨.new .blind sparing (.inProcess (some 3110440))
    (.inProcess (some 72)), none, none⟩
  have hc : create .blind sparing .empty = (.ok made, .empty) := by rfl
  have hr : (made.state.run (finding fourBoxes)).isSome := by decide +kernel
  obtain ⟨t, ht⟩ := Option.isSome_iff_exists.mp hr
  obtain ⟨hvisit, hkeep⟩ := detections_keep_best hc ht
  obtain ⟨d, _, -, hv, -⟩ := hvisit fourBoxes ⟨.start, ⟨0⟩⟩ (by decide +kernel)
  obtain ⟨⟨boxes, hf, hbest⟩, hok, -⟩ := hkeep _ d hv
  obtain rfl : fourBoxes = boxes := Option.some.inj hf
  refine ⟨made, t, _, d, hc, ht, hv, ?_, hbest, hok⟩
  -- They are the first two of the only ranking.
  obtain ⟨dropped, -, hu, -⟩ := hbest.best (by decide)
  have hd : (Box.byConfidence fourBoxes).take 2 = d.boxes := by
    rw [hu _ (Box.byConfidence_isRanking fourBoxes)]
    exact List.take_left' hbest.length
  simp [← hd, Box.byConfidence, fourBoxes, Confidence.rank, List.mergeSort,
    List.MergeSort.Internal.splitInTwo]

end State

end Pipeline

end DayNight
