import DayNight.Controller.Status
import DayNight.Proofs.Pipeline.Agreement
import DayNight.Proofs.Pipeline.Telling

namespace DayNight

namespace Controller

variable {c : Controller}

theorem observe_frame (c : Controller) (sample : BrightnessSample) :
    (c.observe sample).2.active = c.active ∧
    (c.observe sample).2.captureDegraded = c.captureDegraded := by
  obtain ⟨_, _, _, h | h⟩ := c.observe_cases sample
  · rw [h]
    exact ⟨rfl, rfl⟩
  · obtain ⟨_, _, hp⟩ := poll_frame _ sample.takenAt
    rw [h, hp]
    exact ⟨rfl, rfl⟩

theorem command_frame (c : Controller) (command : SwitchCommand) (now : Moment) :
    (c.step (.command command now)).2.active = c.active ∧
    (c.step (.command command now)).2.captureDegraded = c.captureDegraded := by
  cases c.bids command
  case nothing hf     => simp [step, apply_of_error hf]
  case auto hv hm     => simp [step, apply_of_auto hv hm, superseded]
  case stay hm hc     => simp [step, apply_of_manual_active hm hc, superseded]
  case leave hm hc ha => simp [step, apply_of_manual hm hc ha, superseded, begin]

-- What an action makes of the active camera and of the flag.
inductive Flags (c : Controller) : Action → Controller → Prop
  | keeps {a : Action} {d : Controller} : d.active = c.active →
    d.captureDegraded = c.captureDegraded → Flags c a d
  | switches {t : Transition} {d : Controller} : c.isPending t → d.active = t.target →
    d.captureDegraded = false → Flags c (.complete t) d
  | reports {degraded : Bool} {error : Option String} {d : Controller} : d.active = c.active →
    d.captureDegraded = degraded → Flags c (.setCaptureDegraded c.active degraded error) d

theorem step_flags (c : Controller) (a : Action) : c.Flags a (c.step a).2 := by
  cases a
  case observe sample => exact .keeps (c.observe_frame sample).1 (c.observe_frame sample).2
  case poll now =>
    have ⟨_, _, hp⟩ := c.poll_frame now
    exact .keeps (by rw [step, hp]) (by rw [step, hp])
  case command command now =>
    exact .keeps (c.command_frame command now).1 (c.command_frame command now).2
  case complete t =>
    cases hi : c.isPending t
    case true  => rw [step, complete_of_pending hi]; exact .switches hi rfl rfl
    case false => rw [step, complete_of_not_pending hi]; exact .keeps rfl rfl
  case fail t e now =>
    cases hi : c.isPending t
    case true  => rw [step, fail_of_pending hi]; exact .keeps rfl rfl
    case false => rw [step, fail_of_not_pending hi]; exact .keeps rfl rfl
  case setCaptureDegraded camera degraded error =>
    have hs := c.setCaptureDegraded_active camera degraded error
    by_cases ha : camera = c.active
    case pos =>
      subst ha
      exact .reports hs (by simp [step, setCaptureDegraded])
    case neg => exact .keeps hs (by simp [step, setCaptureDegraded, ha])

end Controller

namespace Pipeline

-- The thread counts its camera as failing, and has told the controller so.
structure CaptureThread.HasReported (t : CaptureThread) : Prop where
  degraded : t.degraded = true
  quiet    : t.phase.reports? = none

namespace State

variable {initial s t : State} {c : Camera} {e : Event} {transition : Transition}

-- A switch back to a camera is accepted while its thread still counts it as failing, and since then
-- the thread has neither published a frame of it nor had a turn without it.
inductive Overlooked (initial : State) (c : Camera) : State → Prop
  | begins {s t : State} {e : Event} {transition : Transition} : Reachable initial s →
    s.step e = some t → s.told? e = some (.complete transition) →
    s.controller.isPending transition → transition.target = c →
    (t.captures.get c).HasReported → Overlooked initial c t
  | goesOn {s t : State} {e : Event} : Overlooked initial c s → s.step e = some t →
    t.controller.active = c → (t.captures.get c).HasReported → Overlooked initial c t

-- What holds of the threads' own flags.
structure Sound (s : State) : Prop where
  idle  : s.owner = .idle → ∀ c, (s.captures.get c).phase = .notStarted
  flags : ∀ c d, (s.captures.get c).phase.reports? = some d → (s.captures.get c).degraded = d

theorem Progress.owner (h : s.Progress t) (ho : t.owner = .idle) : s.owner = .idle := by
  cases h
  case steady hs => exact (hs.idle ho).1
  all_goals exact ho

theorem Sound.new {jpeg : JpegDecoder} {config : Config} {frames : FrameChannel}
    {detections : DetectionChannel} :
    Sound (.new jpeg config frames detections) where
  idle  := fun _ c => by cases c <;> rfl
  flags := fun c d h => by cases c <;> cases h

-- Before the pipeline is started, no capture thread does anything.
theorem captureStep_of_notStarted {clock : Clock} {signal : Signal}
    (h : (s.captures.get c).phase = .notStarted) : s.captureStep c clock signal = none := by
  cases signal <;> simp [captureStep, h]

theorem Sound.step (h : s.Sound) (hi : InStep s) (hs : s.step e = some t) : t.Sound where
  idle := by
    intro ho c
    have hn := h.idle ((step_progress hi.idle hs).owner ho)
    cases step_tells hs
    case capture d signal ha _ =>
      rw [State.step, ha] at hs
      cases (captureStep_of_notStarted (hn d)).symm.trans hs
    case start ht _ _ _ => cases ht.symm.trans ho
    case spawnFails hw =>
      obtain hc | ⟨hc, _⟩ := hw c
      · exact hc ▸ hn c
      · cases (congrArg CaptureThread.phase hc).symm.trans (hn c)
    case other ht       => rw [ht.captures]; exact hn c
  flags := by
    intro c d hd
    by_cases he : ∃ signal, e.action = .thread (.capture c) signal
    case pos =>
      obtain ⟨signal, he⟩ := he
      cases (step_tells hs).own he
      case keeps hq _    => cases hq.symm.trans hd
      case resets hq _   => cases hq.symm.trans hd
      case changes hq    => exact Option.some.inj (hq.symm.trans hd)
    case neg =>
      obtain hc | ⟨_, hc⟩ | ⟨_, hc⟩ := (step_tells hs).captures (not_exists.mp he)
      · rw [hc] at hd ⊢
        exact h.flags c d hd
      all_goals
        rw [hc] at hd
        cases hd

-- Only the thread of a camera reports on it.
theorem reports_of_told {degraded : Bool} {error : Option String}
    (h : s.told? e = some (.setCaptureDegraded c degraded error)) :
    (s.captures.get c).phase.reports? = some degraded := by
  unfold told? at h
  split at h
  case h_1 => cases h
  case h_2 d signal _ =>
    cases hp : (s.captures.get d).phase
    case recover | report =>
      rw [hp] at h
      cases h
      rw [hp]
      rfl
    all_goals
      rw [hp] at h
      cases h
  case h_3 =>
    cases hp : s.control.phase
    all_goals
      rw [hp] at h
      cases h
  case h_4 => cases h

-- A thread that has reported had done so before, or is just doing it.
theorem reported_before (h : s.Sound) (hs : s.step e = some t)
    (hq : (t.captures.get c).HasReported) : (s.captures.get c).HasReported ∨
      ∃ error, s.told? e = some (.setCaptureDegraded c true error) := by
  by_cases he : ∃ signal, e.action = .thread (.capture c) signal
  case pos =>
    obtain ⟨signal, he⟩ := he
    cases (step_tells hs).own he
    case keeps hd =>
      have hd := hd.symm.trans hq.degraded
      cases hp : (s.captures.get c).phase
      case report text bare => exact .inr ⟨some text, by rw [told?, he]; simp only [hp]; rfl⟩
      case recover luma =>
        cases (h.flags c false (by rw [hp]; rfl)).symm.trans hd
      all_goals exact .inl ⟨hd, by rw [hp]; rfl⟩
    case resets hd  => cases hd.symm.trans hq.degraded
    case changes hd => cases hd.symm.trans hq.quiet
  case neg =>
    obtain hc | ⟨ho, hc⟩ | ⟨_, hc⟩ := (step_tells hs).captures (not_exists.mp he)
    · exact .inl (hc ▸ hq)
    · rw [hc] at hq
      exact .inl ⟨hq.degraded, by rw [h.idle ho c]; rfl⟩
    · rw [hc] at hq
      cases hq.degraded

-- The controller knows of a failing camera, unless a switch back to it was overlooked.
def Tracked (initial s : State) : Prop :=
  (s.captures.get s.controller.active).HasReported →
    s.controller.captureDegraded = true ∨ Overlooked initial s.controller.active s

theorem Tracked.step (h : Tracked initial s) (hr : Reachable initial s) (hw : s.Sound)
    (hs : s.step e = some t) : Tracked initial t := by
  intro hq
  have hc := (step_tells hs).controller
  obtain hb | ⟨error, hd⟩ := reported_before hw hs hq
  case inr =>
    rw [hd] at hc
    have ha : t.controller.active = s.controller.active := by
      rw [hc]
      exact Controller.setCaptureDegraded_active ..
    refine .inl ?_
    rw [hc, ha]
    simp [Controller.told, Controller.step, Controller.setCaptureDegraded]
  case inl =>
    have hkeep (ha : t.controller.active = s.controller.active)
        (hf : t.controller.captureDegraded = s.controller.captureDegraded) :
        t.controller.captureDegraded = true ∨ Overlooked initial t.controller.active t := by
      rw [ha] at hb
      obtain hf' | ho := h hb
      · exact .inl (hf.trans hf')
      · exact .inr (ha ▸ .goesOn ho hs ha (ha ▸ hq))
    cases hd : s.told? e
    case none =>
      rw [hd] at hc
      exact hkeep (by rw [hc]; rfl) (by rw [hc]; rfl)
    case some a =>
      rw [hd] at hc
      have hf : s.controller.Flags a t.controller := hc ▸ s.controller.step_flags a
      cases hf
      case keeps ha hf => exact hkeep ha hf
      case switches transition hp ha _ => exact .inr (.begins hr hs hd hp ha.symm hq)
      case reports degraded error ha hf =>
        cases degraded
        case true => exact .inl hf
        case false =>
          rw [ha] at hb
          cases (reports_of_told hd).symm.trans hb.quiet

-- As long as a switch back is overlooked, the flag stays down.
theorem Overlooked.flag (h : Overlooked initial c s) : s.controller.captureDegraded = false ∧
    s.controller.active = c ∧ (s.captures.get c).HasReported := by
  induction h
  case begins s t e transition _ hs hd hp ha hq =>
    have hc := (step_tells hs).controller
    rw [hd] at hc
    have hn : t.controller = (s.controller.complete transition).2 := hc
    rw [Controller.complete_of_pending hp] at hn
    exact ⟨by rw [hn], by rw [hn]; exact ha, hq⟩
  case goesOn s t e _ hs ha hq ih =>
    obtain ⟨hf, hsa, hsq⟩ := ih
    refine ⟨?_, ha, hq⟩
    have hc := (step_tells hs).controller
    cases hd : s.told? e
    case none =>
      rw [hd] at hc
      exact hc ▸ hf
    case some a =>
      rw [hd] at hc
      have hg : s.controller.Flags a t.controller := hc ▸ s.controller.step_flags a
      cases hg
      case keeps _ hg      => exact hg.trans hf
      case switches hg     => exact hg
      case reports d _ _ _ =>
        rw [hsa] at hd
        cases (reports_of_told hd).symm.trans hsq.quiet

theorem tracked_of_reachable {jpeg : JpegDecoder} {config : Config} {frames : FrameChannel}
    {detections : DetectionChannel} (h : Reachable (.new jpeg config frames detections) s) :
    s.Sound ∧ Tracked (.new jpeg config frames detections) s := by
  induction h
  case start =>
    refine ⟨.new, fun hq => ?_⟩
    have hd := hq.degraded
    rw [State.new, PerCamera.get_both] at hd
    cases hd
  case step hr he ih =>
    exact ⟨ih.1.step (InStep.new.reachable hr) he, ih.2.step hr ih.1 he⟩

-- So the flag and the thread agree exactly then.
theorem degraded_iff {jpeg : JpegDecoder} {config : Config} {frames : FrameChannel}
    {detections : DetectionChannel} (h : Reachable (.new jpeg config frames detections) s)
    (hq : (s.captures.get s.controller.active).HasReported) :
    s.controller.captureDegraded = true ↔
      ¬ Overlooked (.new jpeg config frames detections) s.controller.active s := by
  refine ⟨fun hf ho => ?_, fun ho => ((tracked_of_reachable h).2 hq).resolve_right ho⟩
  cases ho.flag.1.symm.trans hf

end State

namespace CaptureThread

variable {t : CaptureThread} {limit : UInt32}

-- The thread is about to end its turn with a failure, at the limit or beyond it.
def Ending (limit : UInt32) (t : CaptureThread) : Prop :=
  match t.phase with
  | .failed _ _ => limit ≤ t.failures + 1
  | .report _ _ => t.degraded = true
  | .close _ .sleep => t.degraded = true
  | .unclaim .sleep => t.degraded = true
  | .sleep => t.degraded = true
  | _ => False

theorem ending_endFailure (bare : Bool) (h : t.degraded = true) :
    (t.endFailure bare).Ending limit := by
  cases bare <;> exact h

theorem ending_release (h : t.degraded = true) : (t.release .sleep).Ending limit := by
  cases hl : t.lease
  case none   => simp only [release, hl]; exact h
  case some _ => simp only [release, hl]; exact h

theorem ending_afterReport (period : UInt32) (bare : Bool) (h : t.degraded = true) :
    (t.afterReport period bare).Ending limit := by
  unfold afterReport
  split
  case isTrue  => exact ending_release h
  case isFalse => exact ending_endFailure bare h

end CaptureThread

namespace State

variable {s t : State} {c : Camera} {clock : Clock} {signal : Signal} {e : Event}

theorem CaptureStep.ending (h : s.CaptureStep c clock signal (s.captures.get c) t)
    (he : (s.captures.get c).Ending s.config.capture.maxFailedReads) (hz : signal ≠ .timeUp) :
    (t.captures.get c).Ending s.config.capture.maxFailedReads := by
  cases h
  case counts hp hl =>
    rw [CaptureThread.Ending, hp] at he
    exact absurd hl (UInt32.not_lt.mpr he)
  case recounts hp _ hd =>
    rw [setCapture, PerCamera.get_set_self]
    exact CaptureThread.ending_afterReport _ _ hd
  case gives => simp [setCapture, CaptureThread.goTo, CaptureThread.Ending]
  case reports hp _ =>
    rw [CaptureThread.Ending, hp] at he
    rw [setCapture, PerCamera.get_set_self]
    exact CaptureThread.ending_afterReport _ _ he
  case closes next hp =>
    rw [CaptureThread.Ending, hp] at he
    cases next
    case sleep => simpa [setCapture, CaptureThread.goTo, CaptureThread.Ending] using he
    all_goals cases he
  case unclaims next hp =>
    rw [CaptureThread.Ending, hp] at he
    cases next
    case sleep =>
      simpa [setCapture, CaptureThread.goOn, CaptureThread.goTo, CaptureThread.Ending] using he
    all_goals cases he
  case wakes hs _ | wakesUp hs _ => exact absurd hs hz
  all_goals
    rw [CaptureThread.Ending, ‹(s.captures.get c).phase = _›] at he
    cases he

-- So the turn goes on to its end, whatever the other threads do in between.
theorem step_ending (hi : s.Sound) (hs : s.step e = some t)
    (he : (s.captures.get c).Ending s.config.capture.maxFailedReads)
    (hz : e.action ≠ .thread (.capture c) .timeUp) :
    (t.captures.get c).Ending t.config.capture.maxFailedReads := by
  rw [(step_tells hs).config]
  by_cases ha : ∃ signal, e.action = .thread (.capture c) signal
  case pos =>
    obtain ⟨signal, ha⟩ := ha
    rw [State.step, ha] at hs
    exact (captureStep_cases hs).ending he fun h => hz (h ▸ ha)
  case neg =>
    obtain hc | ⟨ho, _⟩ | ⟨hn, _⟩ := (step_tells hs).captures (not_exists.mp ha)
    · rwa [hc]
    · rw [CaptureThread.Ending, hi.idle ho c] at he
      cases he
    · rw [hn] at he
      cases he

theorem run_ending {jpeg : JpegDecoder} {config : Config} {frames : FrameChannel}
    {detections : DetectionChannel} {events : List Event}
    (hs : Reachable (.new jpeg config frames detections) s)
    (he : (s.captures.get c).Ending s.config.capture.maxFailedReads) (hr : s.run events = some t)
    (hz : ∀ e ∈ events, e.action ≠ .thread (.capture c) .timeUp) :
    (t.captures.get c).Ending t.config.capture.maxFailedReads := by
  induction events generalizing s
  case nil =>
    obtain rfl : s = t := by simpa [State.run] using hr
    exact he
  case cons e events ih =>
    simp only [State.run, List.foldlM_cons] at hr
    cases hu : s.step e
    case none => simp [hu] at hr
    case some u =>
      simp only [hu] at hr
      have hz := List.forall_mem_cons.mp hz
      exact ih (.step hs hu) (step_ending (tracked_of_reachable hs).1 hu he hz.1) hr hz.2

-- When a turn of the active camera ends with a failure at the limit or beyond, the controller knows
-- that the camera fails, unless a switch back to it was overlooked.
theorem degraded_after_failure {jpeg : JpegDecoder} {config : Config} {frames : FrameChannel}
    {detections : DetectionChannel} {error : SourceError} {bare : Bool} {events : List Event}
    (hs : Reachable (.new jpeg config frames detections) s)
    (hp : (s.captures.get c).phase = .failed error bare)
    (hl : s.config.capture.maxFailedReads ≤ (s.captures.get c).failures + 1)
    (hr : s.run events = some t) (hz : ∀ e ∈ events, e.action ≠ .thread (.capture c) .timeUp)
    (ht : (t.captures.get c).phase = .sleep) (ha : t.controller.active = c) :
    (t.controller.captureDegraded = true ↔ ¬ Overlooked (.new jpeg config frames detections) c t) ∧
    (t.controller.status.degraded = true ↔
      ¬ Overlooked (.new jpeg config frames detections) c t ∨
        t.controller.transitionFailed = true) := by
  have he := run_ending hs (by rw [CaptureThread.Ending, hp]; exact hl) hr hz
  rw [CaptureThread.Ending, ht] at he
  have hd := degraded_iff (hs.run hr) (ha ▸ ⟨he, by rw [ht]; rfl⟩)
  rw [ha] at hd
  refine ⟨hd, ?_⟩
  rw [← hd]
  simp [Controller.status, Controller.degraded]

-- One failure is enough here, and a turn lasts for a second.
def strict : Config := { capture := { framesPerSecond := 1, maxFailedReads := 1 } }

def timed (millis : Nat) (action : Action) : Event :=
  ⟨⟨⟨1000000 * millis⟩, ⟨1000000 * millis⟩⟩, action⟩

-- Steps of the day camera's thread.
def dayGoes (millis steps : Nat) : List Event :=
  List.replicate steps (timed millis (.thread (.capture .day) .go))

theorem dayGoes_action (millis steps : Nat) :
    ∀ e ∈ dayGoes millis steps, e.action ≠ .thread (.capture .day) .timeUp := by
  intro e he
  obtain ⟨_, rfl⟩ := List.mem_replicate.mp he
  exact nofun

def dayReads (millis : Nat) (reason : String) : Event :=
  timed millis (.thread (.capture .day) (.read (.error (.reading reason))))

def firstFailure : List Event :=
  [timed 0 .start] ++ dayGoes 0 4 ++ [timed 0 (.thread (.capture .day) .opened), dayReads 0 "first"]

theorem degraded_after_first_failure : ∃ s t,
    Reachable (.new .blind strict (.inProcess none) (.inProcess none)) s ∧
    s.run (dayGoes 0 4) = some t ∧
    t.controller.status.degraded = true ∧
    ¬ Overlooked (.new .blind strict (.inProcess none) (.inProcess none)) .day t := by
  have hr : ((State.new .blind strict (.inProcess none) (.inProcess none)).run firstFailure).bind
      (fun s => (s.run (dayGoes 0 4)).map fun t =>
        ((s.captures.get .day).phase, (s.captures.get .day).failures,
          s.config.capture.maxFailedReads, (t.captures.get .day).phase, t.controller.active,
          t.controller.captureDegraded)) =
      some (.failed (.reading "first") false, 0, 1, .sleep, .day, true) := by
    rfl
  obtain ⟨s, hs, hr⟩ := Option.bind_eq_some_iff.mp hr
  obtain ⟨t, ht, hr⟩ := Option.map_eq_some_iff.mp hr
  simp only [Prod.mk.injEq] at hr
  obtain ⟨hp, hf, hm, hz, ha, hd⟩ := hr
  have h := degraded_after_failure (.run .start hs) hp (by rw [hm, hf]; decide) ht
    (dayGoes_action 0 4) hz ha
  have ho := h.1.mp hd
  exact ⟨s, t, .run .start hs, ht, h.2.mpr (.inl ho), ho⟩

-- In the wait for its second turn the night camera takes over for a moment. Then the day camera
-- fails again.
def secondFailure : List Event :=
  let control (signal : Signal) := timed 50 (.thread .control signal)
  let switchTo (c : Camera) : List Event :=
    [timed 50 (.command ⟨.manual, some c, none⟩), timed 50 .request]
      ++ List.replicate 7 (control .go) ++ [control .opened] ++ List.replicate 4 (control .go)
  List.replicate 5 (timed 0 (.thread .control .go))
    ++ [timed 0 (.thread .control (.refused (.reading "busy")))]
    ++ List.replicate 3 (timed 0 (.thread .control .go)) ++ [control .timeUp]
    ++ switchTo .night ++ switchTo .day
    ++ [timed 1000 (.thread (.capture .day) .timeUp)] ++ dayGoes 1000 3 ++ [dayReads 1000 "second"]

-- So a camera may fail without a sign of it.
theorem not_always_degraded_after_failure : ¬ ∀ (jpeg : JpegDecoder) (config : Config)
    (frames : FrameChannel) (detections : DetectionChannel) (s t : State) (c : Camera)
    (error : SourceError) (bare : Bool) (events : List Event), config.validate = .ok () →
    Reachable (.new jpeg config frames detections) s →
    (s.captures.get c).phase = .failed error bare →
    s.config.capture.maxFailedReads ≤ (s.captures.get c).failures + 1 →
    s.run events = some t → (∀ e ∈ events, e.action ≠ .thread (.capture c) .timeUp) →
    (t.captures.get c).phase = .sleep → t.controller.active = c →
    t.controller.status.degraded = true := by
  intro h
  have hr : ((State.new .blind strict (.inProcess none) (.inProcess none)).run
      (firstFailure ++ dayGoes 0 4 ++ secondFailure)).bind
      (fun s => (s.run (dayGoes 1000 3)).map fun t =>
        ((s.captures.get .day).phase, (s.captures.get .day).failures,
          s.config.capture.maxFailedReads, (t.captures.get .day).phase, t.controller.active,
          t.controller.status.degraded)) =
      some (.failed (.reading "second") false, 1, 1, .sleep, .day, false) := by
    rfl
  obtain ⟨s, hs, hr⟩ := Option.bind_eq_some_iff.mp hr
  obtain ⟨t, ht, hr⟩ := Option.map_eq_some_iff.mp hr
  simp only [Prod.mk.injEq] at hr
  obtain ⟨hp, hf, hm, hz, ha, hd⟩ := hr
  have ho := h .blind strict _ _ s t .day _ _ _ rfl (.run .start hs) hp (by rw [hm, hf]; decide) ht
    (dayGoes_action 1000 3) hz ha
  cases hd.symm.trans ho

end State

end Pipeline

end DayNight
