import DayNight.Proofs.Pipeline.Steps

namespace DayNight.Pipeline.State

variable {s t : State}

-- What can happen in a step, whoever goes on.
inductive Step (s : State) : State → Prop
  | starts : s.owner = .idle →
    Step s { s with
      captures := ⟨s.captures.day.goTo .checkStop, s.captures.night.goTo .checkStop⟩
      detector := s.detector.goTo .checkStop
      control := { s.control with phase := .starting }
      owner := .running }
  | spawnFails {thread : Thread} {deadline} : s.owner = .running → thread.onward.all s.isFresh →
    Step s { s.withdraw thread.onward with
      gate := s.gate.close
      stop := s.stop.trigger
      owner := .joining thread.before [] deadline }
  | beginsStop {deadline} : s.owner = .running →
    Step s { s with gate := s.gate.close, owner := .stopping deadline }
  | owner {t : State} : s.OwnerStep t → Step s t
  | capture {c} {clock : Clock} {signal : Signal} {t : State} :
    s.CaptureStep c clock signal (s.captures.get c) t → Step s t
  | detector {clock : Clock} {t : State} : s.DetectorStep clock t → Step s t
  | control {clock : Clock} {t : State} : s.ControlStep clock t → Step s t
  | command {command now} : s.lock = none → Step s { s with
      controller := (s.controller.step (.command command now)).2
      lock := (s.controller.step (.command command now)).1.wanted?.map .caller }
  | requests {transition} : s.lock = some (.caller transition) →
    Step s { s with requests := s.requests ++ [transition], lock := none }
  | readsFrame : Step s { s with frames := s.frames.latest.2 }
  | readsDetection : Step s { s with detections := s.detections.latest.2 }
  | arrivesLate {h devices} : s.devices.arriveLate? h = some devices →
    Step s { s with devices := devices }
  | refusesLate {h devices} : s.devices.refuseLate? h = some devices →
    Step s { s with devices := devices }
  | closesStray {h devices} : s.devices.closeStray? h = some devices →
    Step s { s with devices := devices }

theorem step_cases {e : Event} (h : s.step e = some t) : s.Step t := by
  obtain ⟨clock, action⟩ := e
  cases action
  case start =>
    simp only [step, start] at h
    split at h
    case h_1 ho => cases h; exact .starts ho
    case h_2    => cases h
  case spawnFails =>
    obtain ⟨ho, hf, rfl⟩ := spawnFails_eq h
    exact .spawnFails ho hf
  case beginStop =>
    simp only [step, beginStop] at h
    split at h
    case h_1 ho => cases h; exact .beginsStop ho
    case h_2    => cases h
  case owner => exact .owner (ownerStep_cases h)
  case thread thread signal =>
    cases thread
    case capture  => exact .capture (captureStep_cases h)
    case detector => exact .detector (detectorStep_cases h)
    case control  => exact .control (controlStep_cases h)
  case command =>
    obtain ⟨hl, rfl⟩ := command_eq h
    exact .command hl
  case request =>
    simp only [step, request] at h
    split at h
    case h_1 hl => cases h; exact .requests hl
    case h_2    => cases h
  case readFrame     => cases h; exact .readsFrame
  case readDetection => cases h; exact .readsDetection
  case arriveLate =>
    obtain ⟨_, hd, rfl⟩ := Option.map_eq_some_iff.mp h
    exact .arrivesLate hd
  case refuseLate =>
    obtain ⟨_, hd, rfl⟩ := Option.map_eq_some_iff.mp h
    exact .refusesLate hd
  case closeStray =>
    obtain ⟨_, hd, rfl⟩ := Option.map_eq_some_iff.mp h
    exact .closesStray hd

-- Only the thread of a camera moves on in its work, and it starts from the beginning.
theorem Step.own (hs : s.Step t) (c : Camera) :
    t.captures.get c = s.captures.get c ∨
    (s.owner = .idle ∧ t.owner = .running ∧
      t.captures.get c = (s.captures.get c).goTo .checkStop) ∨
    (s.owner = .running ∧ s.captures.get c = CaptureThread.new.goTo .checkStop ∧
      t.captures.get c = CaptureThread.new.goTo .exited) ∨
    ∃ clock signal, s.CaptureStep c clock signal (s.captures.get c) t := by
  cases hs
  case starts ho => exact .inr (.inl ⟨ho, rfl, by cases c <;> rfl⟩)
  case spawnFails ho hf =>
    obtain hc | ⟨hc, hx⟩ := withdraw_captures hf c
    · exact .inl hc
    · exact .inr (.inr (.inl ⟨ho, hc, hx⟩))
  case capture d clock signal hs =>
    by_cases hd : c = d
    case pos => exact .inr (.inr (.inr ⟨clock, signal, hd ▸ hs⟩))
    case neg => cases hs <;> exact .inl (PerCamera.get_set_of_ne _ hd _)
  case owner hs | detector hs | control hs => cases hs <;> exact .inl rfl
  all_goals exact .inl rfl

theorem run_cons {e : Event} {events : List Event} (h : s.run (e :: events) = some t) :
    ∃ u, s.step e = some u ∧ u.run events = some t :=
  Option.bind_eq_some_iff.mp h

theorem run_single {e : Event} (h : s.step e = some t) : s.run [e] = some t := by
  simp [run, h]

theorem run_append {events others : List Event} {u : State} (hs : s.run events = some t)
    (ht : t.run others = some u) : s.run (events ++ others) = some u := by
  rw [run, List.foldlM_append]
  exact Option.bind_eq_some_iff.mpr ⟨t, hs, ht⟩

theorem run_of_append {events others : List Event} {u : State} (hs : s.run events = some t)
    (hu : s.run (events ++ others) = some u) : t.run others = some u := by
  rw [run, List.foldlM_append] at hu
  obtain ⟨_, ht, hu⟩ := Option.bind_eq_some_iff.mp hu
  cases hs.symm.trans ht
  exact hu

end DayNight.Pipeline.State
