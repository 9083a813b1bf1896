import DayNight.Pipeline.Shutdown
import DayNight.Proofs.Pipeline.Devices

namespace DayNight

variable {α : Type} {stop : StopSignal} {limit duration : Duration} {raisedAfter : Option Duration}

theorem answerWithin_eq_none {answer : Option α} :
    answerWithin limit duration answer = none ↔ ¬ duration < limit ∨ answer = none := by
  unfold answerWithin
  split
  case isTrue h  => simp [h]
  case isFalse h => simp [h]

namespace Pipeline

-- What the devices come to when a thread has waited for an open.
def Devices.settle (d : Devices) (h : Handle) : Option (Except SourceError Unit) → Devices
  | some (.ok ()) => d.arrive h
  | some (.error _) => d.refuse h
  | none => d.abandon h

namespace State

variable {s t : State} {e : Event} {thread : Thread} {c : Camera} {h : Handle}
         {jpeg : JpegDecoder} {config : Config} {frames : FrameChannel}
         {detections : DetectionChannel}

-- The open that the thread waits for.
def awaited? (s : State) : Thread → Option Handle
  | .capture c => (s.captures.get c).phase.opening?
  | .detector => none
  | .control => s.control.phase.opening?

-- A thread that waits for an open goes on with whatever comes of it, and gives the open up if there
-- is no answer in time.
theorem threadStep_ofOpen (hw : s.awaited? thread = some h) (clock : Clock)
    (answer : Option (Except SourceError Unit)) :
    ∃ t, s.threadStep thread clock (.ofOpen answer) = some t ∧
      t.devices = s.devices.settle h answer := by
  cases thread
  case detector => cases hw
  case capture c =>
    rw [awaited?] at hw
    cases hp : (s.captures.get c).phase <;> rw [hp] at hw <;> cases hw
    rcases answer with _ | _ | _
    all_goals simp [threadStep, captureStep, hp, Signal.ofOpen, setCapture, Devices.settle]
  case control =>
    rw [awaited?] at hw
    cases hp : s.control.phase <;> rw [hp] at hw <;> cases hw
    all_goals
      rcases answer with _ | _ | _
      all_goals
        simp [threadStep, controlStep, probeStep, switchStep, hp, Signal.ofOpen, setControl,
          Devices.settle]

-- Nobody else moves a control thread that waits for an open.
theorem control_of_others (he : s.step e = some t)
    (hn : ∀ signal, e.action ≠ .thread .control signal) (hi : InStep s)
    (hw : s.awaited? .control = some h) : t.control = s.control := by
  rw [awaited?] at hw
  obtain ⟨clock, action⟩ := e
  cases action
  case start =>
    simp only [step, start] at he
    split at he
    case h_1 ho => rw [hi.idle ho] at hw; cases hw
    case h_2    => cases he
  case spawnFails =>
    obtain ⟨_, hf, _⟩ := spawnFails_eq he
    rw [control_of_fresh hf] at hw
    cases hw
  case beginStop | request =>
    simp only [step, beginStop, request] at he
    split at he <;> cases he
    rfl
  case owner => cases ownerStep_cases he <;> rfl
  case thread other signal =>
    cases other
    case capture  => cases captureStep_cases he <;> rfl
    case detector => cases detectorStep_cases he <;> rfl
    case control  => exact absurd rfl (hn signal)
  case command =>
    obtain ⟨_, rfl⟩ := command_eq he
    rfl
  case readFrame | readDetection => cases he; rfl
  case arriveLate | refuseLate | closeStray =>
    obtain ⟨_, _, rfl⟩ := Option.map_eq_some_iff.mp he
    rfl

theorem awaited_of_others (hs : Reachable (.new jpeg config frames detections) s)
    (he : s.step e = some t) (hn : ∀ signal, e.action ≠ .thread thread signal)
    (hw : s.awaited? thread = some h) : t.awaited? thread = some h := by
  cases thread
  case detector => cases hw
  case control =>
    have hc := control_of_others he hn (InStep.new.reachable hs) hw
    rwa [awaited?, hc]
  case capture c =>
    have hp : (s.captures.get c).phase.opening? = some h := hw
    obtain hx | ⟨ho, _⟩ | ⟨hx, _⟩ := (step_tells he).captures hn
    · rwa [awaited?, hx]
    · rw [(tracked_of_reachable hs).1.idle ho c] at hp
      cases hp
    · rw [hx] at hp
      cases hp

theorem awaited_of_run {events : List Event}
    (hs : Reachable (.new jpeg config frames detections) s) (ht : s.run events = some t)
    (hn : ∀ e ∈ events, ∀ signal, e.action ≠ .thread thread signal)
    (hw : s.awaited? thread = some h) : t.awaited? thread = some h := by
  induction events generalizing s
  case nil => cases ht; exact hw
  case cons e events ih =>
    have ⟨u, he, ht⟩ := run_cons ht
    have ⟨hne, hn⟩ := List.forall_mem_cons.mp hn
    exact ih (hs.step he) ht hn (awaited_of_others hs he hne hw)

-- However long the call takes and whatever the others do in the meantime, the thread goes on with
-- the answer that it has in time, or without one.
theorem goes_on_with_answer {meanwhile : List Event}
    (hs : Reachable (.new jpeg config frames detections) s) (hw : s.awaited? thread = some h)
    (ht : s.run meanwhile = some t)
    (hn : ∀ e ∈ meanwhile, ∀ signal, e.action ≠ .thread thread signal)
    (clock : Clock) (limit duration : Duration) (answer : Option (Except SourceError Unit)) :
    ∃ u, t.threadStep thread clock (.ofOpen (answerWithin limit duration answer)) = some u ∧
      u.devices = t.devices.settle h (answerWithin limit duration answer) :=
  threadStep_ofOpen (awaited_of_run hs ht hn hw) clock _

theorem opensLate_iff {answer : Option (Except SourceError Unit)} :
    (Action.thread thread (.ofOpen (answerWithin limit duration answer))).opensLate ↔
      ¬ duration < limit ∨ answer = none := by
  rw [← answerWithin_eq_none]
  rcases answerWithin limit duration answer with _ | _ | _
  all_goals simp [Signal.ofOpen, Action.opensLate]

-- A capture thread that slept ends if its wait says to stop, and otherwise begins its next turn.
theorem captureStep_wakes (hp : (s.captures.get c).phase = .sleep)
    (hs : s.stop = stop.atWaking limit raisedAfter) (clock : Clock) :
    s.captureStep c clock .timeUp = some (s.setCapture c
      (if stop.wait limit raisedAfter then (s.captures.get c).release .exit
      else (s.captures.get c).goTo .checkStop)) := by
  rw [StopSignal.wait, ← hs]
  simp only [captureStep, hp]
  split <;> simp [*]

theorem detectorStep_wakes (hp : s.detector.phase = .sleep)
    (hs : s.stop = stop.atWaking limit raisedAfter) (clock : Clock) :
    s.detectorStep clock .timeUp =
      some (s.setDetector (if stop.wait limit raisedAfter then .exited else .checkStop)) := by
  rw [StopSignal.wait, ← hs]
  simp only [detectorStep, hp]

-- The control thread gives up waiting for a device on the same condition.
theorem controlStep_wakes {w : Switch} {deadline : Moment}
    (hp : s.control.phase = .claimWait w deadline)
    (hs : s.stop = stop.atWaking limit raisedAfter) (clock : Clock) :
    s.controlStep clock .timeUp = some (s.setControl
      (if stop.wait limit raisedAfter then
        .reportFailure w (.opening (s.deviceName w.transition.target) stillInUse)
      else .claim w deadline)) := by
  rw [StopSignal.wait, ← hs]
  simp only [controlStep, probeStep, switchStep, hp]
  split <;> simp [*]

-- The owner goes on once a thread is joined, and at the deadline he goes on without it.
theorem ownerStep_joining {left late : List Thread} {deadline : Moment} (budget : Duration)
    (ho : s.owner = .joining (thread :: left) late deadline) :
    match joinThread thread.name (s.hasExited thread) budget with
    | .ok () => s.ownerStep .go = some { s with owner := .joining left late deadline }
    | .error e => e = .joinTimeout thread.name budget ∧ s.ownerStep .go = none ∧
      s.ownerStep .timeUp = some { s with owner := .joining left (late ++ [thread]) deadline } := by
  unfold joinThread
  cases he : s.hasExited thread
  case true  => simp [ownerStep, ho, he]
  case false => simp [ownerStep, ho, he]

end State

end Pipeline

end DayNight
