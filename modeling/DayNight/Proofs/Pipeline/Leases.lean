import DayNight.Proofs.Pipeline.Events

namespace DayNight.Pipeline

-- Whether a capture thread has its device, where that is certain.
def CapturePhase.leased? : CapturePhase → Option Bool
  | notStarted => some false
  | claim => some false
  | opening _ => some false
  | reading => some true
  | publish _ _ => some true
  | close _ .exit => some false
  | unclaim .exit => some false
  | exited => some false
  | _ => none

namespace CaptureThread

variable {own : CaptureThread}

def Settled (own : CaptureThread) : Prop :=
  ∀ leased, own.phase.leased? = some leased → own.lease.isSome = leased

namespace Settled

theorem anywhere (h : own.phase.leased? = none := by rfl) : own.Settled :=
  fun _ hl => nomatch h.symm.trans hl

theorem exact {leased : Bool} (hp : own.phase.leased? = some leased := by rfl)
    (hl : own.lease.isSome = leased := by rfl) : own.Settled := by
  intro _ h
  rw [hl]
  exact Option.some.inj (hp.symm.trans h)

theorem release (own : CaptureThread) (next : AfterRelease) : (own.release next).Settled := by
  unfold CaptureThread.release
  split
  case h_1 => cases next <;> first | exact .anywhere | exact .exact
  case h_2 hl =>
    cases next <;> first | exact .anywhere | exact .exact rfl (by rw [goOn, goTo, hl]; rfl)

theorem endFailure (own : CaptureThread) (bare : Bool) : (own.endFailure bare).Settled := by
  cases bare <;> exact .anywhere

theorem afterReport (own : CaptureThread) (limit : UInt32) (bare : Bool) :
    (own.afterReport limit bare).Settled := by
  unfold CaptureThread.afterReport
  split
  case isTrue  => exact .release own .sleep
  case isFalse => exact .endFailure own bare

theorem afterPublish (own : CaptureThread) (luma : Option Float) :
    (own.afterPublish luma).Settled := by
  cases luma <;> exact .anywhere

end Settled

end CaptureThread

namespace State

variable {s t : State} {c : Camera} {clock : Clock} {signal : Signal} {jpeg : JpegDecoder}
         {config : Config} {frames : FrameChannel} {detections : DetectionChannel}

theorem CaptureStep.settled (hs : s.CaptureStep c clock signal (s.captures.get c) t)
    (h : (s.captures.get c).Settled) : (t.captures.get c).Settled := by
  have hx {u : State} {own : CaptureThread} (h : own.Settled) :
      ((u.setCapture c own).captures.get c).Settled := by
    exact (captures_setCapture ..).symm ▸ h
  cases hs
  case ends | wakesUp | yields => exact hx (.release _ _)
  case goesOn hl => exact hx (.exact rfl hl)
  case needs hl => exact hx (.exact rfl (by rw [CaptureThread.goTo, hl]; rfl))
  case claims hp _ => exact hx (.exact rfl (h _ (hp ▸ rfl)))
  case opens => exact hx .exact
  case closes next hp =>
    cases next
    case exit => exact hx (.exact rfl (h _ (hp ▸ rfl)))
    all_goals exact hx .anywhere
  case unclaims next hp =>
    cases next
    case exit => exact hx (.exact rfl (h _ (hp ▸ rfl)))
    all_goals exact hx .anywhere
  case reads hp _ => exact hx (.exact rfl (h _ (hp ▸ rfl)))
  case publishes | clears => exact hx (.afterPublish _ _)
  case counts => exact hx (.endFailure _ _)
  case recounts | reports => exact hx (.afterReport _ _ _)
  all_goals exact hx .anywhere

theorem Step.settled (hs : s.Step t) (h : ∀ c, (s.captures.get c).Settled) (c : Camera) :
    (t.captures.get c).Settled := by
  obtain hx | ⟨_, _, hx⟩ | ⟨_, _, hx⟩ | ⟨_, _, hs⟩ := hs.own c
  · exact hx ▸ h c
  · exact hx ▸ .anywhere
  · exact hx ▸ .exact
  · exact hs.settled (h c)

theorem settled_of_reachable (h : Reachable (.new jpeg config frames detections) s) (c : Camera) :
    (s.captures.get c).Settled := by
  induction h generalizing c
  case start        => cases c <;> exact .exact
  case step he ih => exact (step_cases he).settled ih c

end State

end DayNight.Pipeline
