import DayNight.Controller.Run
import DayNight.Pipeline.Step
import DayNight.Proofs.Controller.Step

namespace DayNight.Pipeline.State

variable {s t : State} {clock : Clock} {signal : Signal}

-- The steps of the control thread: where it stands, on what condition it goes on in this way, and
-- what it leaves.
inductive ControlStep (s : State) (clock : Clock) : State → Prop
  | starts : s.control.phase = .starting →
    ControlStep s clock { s with control := ⟨.checkStop, clock.moment⟩ }
  | exits : s.control.phase = .checkStop → s.stop.raised →
    ControlStep s clock (s.setControl .exited)
  | begins : s.control.phase = .checkStop → ¬ s.stop.raised →
    ControlStep s clock (s.setControl .checkTime)
  | plans : s.control.phase = .checkTime → s.control.nextProbe ≤ clock.moment →
    ControlStep s clock { s with
      control := ⟨.chooseProbe, clock.moment.after s.config.switcher.probeInterval⟩ }
  | rests : s.control.phase = .checkTime → ¬ s.control.nextProbe ≤ clock.moment →
    ControlStep s clock (s.setControl .wait)
  | retries : s.control.phase = .retry → s.lock = none →
    ControlStep s clock ({ s with controller := (s.controller.poll clock.moment).2 }.setControl
      (switchOr (s.controller.poll clock.moment).1 .wait))
  | waits : s.control.phase = .wait →
    ControlStep s clock (s.setControl (.receive (clock.moment.after
      ⟨min (s.control.nextProbe.since clock.moment).nanos requestPatience.nanos⟩)))
  | wakes {wakeAt} : s.control.phase = .receive wakeAt →
    ControlStep s clock (s.setControl .checkStop)
  | receives {wakeAt transition rest} : s.control.phase = .receive wakeAt →
    s.requests = transition :: rest →
    ControlStep s clock ({ s with requests := rest }.setControl (.execute ⟨transition, .checkStop⟩))
  -- A probe.
  | chooses : s.control.phase = .chooseProbe → s.lock = none →
    ControlStep s clock (s.setControl (.probeClaim s.controller.active.other))
  | passes {c} : s.control.phase = .probeClaim c → s.claims.claim? c = none →
    ControlStep s clock (s.setControl .retry)
  | probes {c claims} : s.control.phase = .probeClaim c → s.claims.claim? c = some claims →
    ControlStep s clock ({ s with claims := claims, devices := (s.devices.begin c).2 }.setControl
      (.probeOpening (s.devices.begin c).1))
  | probeOpens {h} : s.control.phase = .probeOpening h →
    ControlStep s clock ({ s with devices := s.devices.arrive h }.setControl (.probeReading h))
  | probeFails {h} : s.control.phase = .probeOpening h →
    ControlStep s clock ({ s with devices := s.devices.refuse h }.setControl
      (.probeUnclaim h.camera none))
  | probeLate {h} : s.control.phase = .probeOpening h →
    ControlStep s clock ({ s with devices := s.devices.abandon h }.setControl
      (.probeUnclaim h.camera none))
  | probeReads {h value} : s.control.phase = .probeReading h →
    ControlStep s clock (s.setControl (.probeClose h value))
  | probeCloses {h value} : s.control.phase = .probeClose h value →
    ControlStep s clock ({ s with devices := s.devices.close h }.setControl
      (.probeUnclaim h.camera value))
  | probeMisses {c} : s.control.phase = .probeUnclaim c none →
    ControlStep s clock ({ s with claims := s.claims.release c }.setControl .retry)
  | probeSees {c value} : s.control.phase = .probeUnclaim c (some value) →
    ControlStep s clock ({ s with claims := s.claims.release c }.setControl (.probeSample c value))
  | samples {c value} : s.control.phase = .probeSample c value → s.lock = none →
    ControlStep s clock ({ s with
      controller := (s.controller.observe ⟨c, value, clock.moment⟩).2 }.setControl
      (switchOr (s.controller.observe ⟨c, value, clock.moment⟩).1 .retry))
  -- A switch, until its device is open.
  | drops {w} : s.control.phase = .execute w → s.stop.raised →
    ControlStep s clock (s.setControl w.done)
  | takesUp {w} : s.control.phase = .execute w → ¬ s.stop.raised →
    ControlStep s clock (s.setControl (.checkPending w))
  | skips {w} : s.control.phase = .checkPending w → s.lock = none →
    ¬ s.controller.isPending w.transition → ControlStep s clock (s.setControl w.done)
  | follows {w} : s.control.phase = .checkPending w → s.lock = none →
    s.controller.isPending w.transition →
    ControlStep s clock (s.setControl
      (.claim w (clock.moment.after s.config.capture.openTimeout)))
  | claims {w deadline claims} : s.control.phase = .claim w deadline →
    s.claims.claim? w.transition.target = some claims →
    ControlStep s clock ({ s with
      claims := claims, devices := (s.devices.begin w.transition.target).2 }.setControl
      (.opening w (s.devices.begin w.transition.target).1 (deadline.since clock.moment)))
  | givesUp {w deadline} : s.control.phase = .claim w deadline →
    s.claims.claim? w.transition.target = none → deadline ≤ clock.moment →
    ControlStep s clock (s.setControl
      (.reportFailure w (.opening (s.deviceName w.transition.target) stillInUse)))
  | pauses {w deadline} : s.control.phase = .claim w deadline →
    s.claims.claim? w.transition.target = none → ¬ deadline ≤ clock.moment →
    ControlStep s clock (s.setControl (.claimWait w deadline))
  | stopsTrying {w deadline} : s.control.phase = .claimWait w deadline → s.stop.raised →
    ControlStep s clock (s.setControl
      (.reportFailure w (.opening (s.deviceName w.transition.target) stillInUse)))
  | triesAgain {w deadline} : s.control.phase = .claimWait w deadline → ¬ s.stop.raised →
    ControlStep s clock (s.setControl (.claim w deadline))
  | opens {w h limit} : s.control.phase = .opening w h limit →
    ControlStep s clock ({ s with devices := s.devices.arrive h }.setControl (.complete w h))
  | fails {w h limit e} : s.control.phase = .opening w h limit →
    ControlStep s clock ({ s with devices := s.devices.refuse h }.setControl (.unclaim w e))
  | late {w h limit} : s.control.phase = .opening w h limit →
    ControlStep s clock ({ s with devices := s.devices.abandon h }.setControl
      (.unclaim w (.openTimeout (s.deviceName w.transition.target) limit)))
  | unclaims {w e} : s.control.phase = .unclaim w e →
    ControlStep s clock ({ s with claims := s.claims.release w.transition.target }.setControl
      (.reportFailure w e))
  | reports {w e} : s.control.phase = .reportFailure w e → s.lock = none →
    ControlStep s clock ({ s with
      controller := s.controller.fail w.transition e clock.moment }.setControl w.done)
  -- A switch whose device is open.
  | accepts {w h} : s.control.phase = .complete w h → s.lock = none →
    s.controller.isPending w.transition →
    ControlStep s clock ({ s with
      controller := (s.controller.complete w.transition).2
      lock := some .control }.setControl (.moveGate w h))
  | loses {w h} : s.control.phase = .complete w h → s.lock = none →
    ¬ s.controller.isPending w.transition → ControlStep s clock (s.setControl (.discard w h))
  | moves {w h} : s.control.phase = .moveGate w h →
    ControlStep s clock ({ s with
      gate := s.gate.switchTo w.transition.target s.config.switcher.warmupFrames }.setControl
      (.deposit w h))
  | leaves {w h} : s.control.phase = .deposit w h → s.handoff.get w.transition.target = none →
    ControlStep s clock ({ s with
      handoff := s.handoff.set w.transition.target (some h) }.setControl (.unlock w))
  | replaces {w h stale} : s.control.phase = .deposit w h →
    s.handoff.get w.transition.target = some stale →
    ControlStep s clock ({ s with
      handoff := s.handoff.set w.transition.target (some h) }.setControl (.closeStale w stale))
  | staleCloses {w h} : s.control.phase = .closeStale w h →
    ControlStep s clock ({ s with devices := s.devices.close h }.setControl
      (.unclaimStale w h.camera))
  | staleUnclaims {w c} : s.control.phase = .unclaimStale w c →
    ControlStep s clock ({ s with claims := s.claims.release c }.setControl (.unlock w))
  | unlocks {w} : s.control.phase = .unlock w →
    ControlStep s clock ({ s with lock := none }.setControl w.done)
  | discards {w h} : s.control.phase = .discard w h →
    ControlStep s clock ({ s with devices := s.devices.close h }.setControl
      (.unclaimDiscarded w h.camera))
  | discardUnclaims {w c} : s.control.phase = .unclaimDiscarded w c →
    ControlStep s clock ({ s with claims := s.claims.release c }.setControl w.done)

theorem idleStep_cases (h : s.idleStep clock signal = some t) : s.ControlStep clock t := by
  cases hp : s.control.phase
  case starting =>
    cases signal <;> simp only [idleStep, hp, reduceCtorEq] at h
    cases h
    exact .starts hp
  case checkStop =>
    cases signal <;> simp only [idleStep, hp, reduceCtorEq] at h
    cases h
    split
    case isTrue hr  => exact .exits hp hr
    case isFalse hr => exact .begins hp hr
  case checkTime =>
    cases signal <;> simp only [idleStep, hp, reduceCtorEq] at h
    split at h
    case isTrue ht  => cases h; exact .plans hp ht
    case isFalse ht => cases h; exact .rests hp ht
  case retry =>
    cases signal <;> simp only [idleStep, hp, reduceCtorEq] at h
    obtain ⟨hl, rfl⟩ := withController_eq_some h
    exact .retries hp hl
  case wait =>
    cases signal <;> simp only [idleStep, hp, reduceCtorEq] at h
    cases h
    exact .waits hp
  case receive =>
    cases signal <;> simp only [idleStep, hp, reduceCtorEq] at h
    case timeUp => cases h; exact .wakes hp
    case go =>
      split at h
      case h_1    => cases h
      case h_2 hr => cases h; exact .receives hp hr
  all_goals cases signal <;> simp [idleStep, hp] at h

theorem probeStep_cases (h : s.probeStep clock signal = some t) : s.ControlStep clock t := by
  cases hp : s.control.phase
  case chooseProbe =>
    cases signal <;> simp only [probeStep, hp, reduceCtorEq] at h
    obtain ⟨hl, rfl⟩ := withController_eq_some h
    exact .chooses hp hl
  case probeClaim c =>
    cases signal <;> simp only [probeStep, hp, reduceCtorEq] at h
    split at h
    case h_1 hc => cases h; exact .passes hp hc
    case h_2 hc => cases h; exact .probes hp hc
  case probeOpening =>
    cases signal <;> simp only [probeStep, hp, reduceCtorEq] at h
    case opened   => cases h; exact .probeOpens hp
    case refused  => cases h; exact .probeFails hp
    case openLate => cases h; exact .probeLate hp
  case probeReading =>
    cases signal <;> simp only [probeStep, hp, reduceCtorEq] at h
    split at h
    case h_1 => cases h; exact .probeReads hp
    case h_2 => cases h
  case probeClose =>
    cases signal <;> simp only [probeStep, hp, reduceCtorEq] at h
    cases h
    exact .probeCloses hp
  case probeUnclaim c value =>
    cases signal <;> simp only [probeStep, hp, reduceCtorEq] at h
    cases value
    case none   => cases h; exact .probeMisses hp
    case some _ => cases h; exact .probeSees hp
  case probeSample c value =>
    cases signal <;> simp only [probeStep, hp, reduceCtorEq] at h
    obtain ⟨hl, rfl⟩ := withController_eq_some h
    exact .samples hp hl
  all_goals cases signal <;> simp [probeStep, hp] at h

theorem switchStep_cases (h : s.switchStep clock signal = some t) : s.ControlStep clock t := by
  cases hp : s.control.phase
  case execute w =>
    cases signal <;> simp only [switchStep, hp, reduceCtorEq] at h
    cases h
    split
    case isTrue hr  => exact .drops hp hr
    case isFalse hr => exact .takesUp hp hr
  case checkPending w =>
    cases signal <;> simp only [switchStep, hp, reduceCtorEq] at h
    obtain ⟨hl, rfl⟩ := withController_eq_some h
    split
    case isTrue hi  => exact .follows hp hl hi
    case isFalse hi => exact .skips hp hl hi
  case claim w deadline =>
    cases signal <;> simp only [switchStep, hp, reduceCtorEq] at h
    split at h
    case h_1 hc => cases h; exact .claims hp hc
    case h_2 hc =>
      split at h
      case isTrue ht  => cases h; exact .givesUp hp hc ht
      case isFalse ht => cases h; exact .pauses hp hc ht
  case claimWait w deadline =>
    cases signal <;> simp only [switchStep, hp, reduceCtorEq] at h
    split at h
    case isTrue hr  => cases h; exact .stopsTrying hp hr
    case isFalse hr => cases h; exact .triesAgain hp hr
  case opening w handle limit =>
    cases signal <;> simp only [switchStep, hp, reduceCtorEq] at h
    case opened   => cases h; exact .opens hp
    case refused  => cases h; exact .fails hp
    case openLate => cases h; exact .late hp
  case unclaim w e =>
    cases signal <;> simp only [switchStep, hp, reduceCtorEq] at h
    cases h
    exact .unclaims hp
  case reportFailure w e =>
    cases signal <;> simp only [switchStep, hp, reduceCtorEq] at h
    obtain ⟨hl, rfl⟩ := withController_eq_some h
    exact .reports hp hl
  case complete w handle =>
    cases signal <;> simp only [switchStep, hp, reduceCtorEq] at h
    obtain ⟨hl, hc⟩ := withController_eq_some h
    cases hi : s.controller.isPending w.transition
    case true =>
      have ha : s.ControlStep clock _ := .accepts hp hl hi
      rw [Controller.complete_of_pending hi] at ha hc
      exact hc ▸ ha
    case false =>
      rw [Controller.complete_of_not_pending hi] at hc
      exact hc ▸ .loses hp hl (by simp [hi])
  case moveGate w handle =>
    cases signal <;> simp only [switchStep, hp, reduceCtorEq] at h
    cases h
    exact .moves hp
  case deposit w handle =>
    cases signal <;> simp only [switchStep, hp, reduceCtorEq] at h
    cases h
    split
    case h_1 hs => exact .replaces hp hs
    case h_2 hs => exact .leaves hp hs
  case closeStale w handle =>
    cases signal <;> simp only [switchStep, hp, reduceCtorEq] at h
    cases h
    exact .staleCloses hp
  case unclaimStale w c =>
    cases signal <;> simp only [switchStep, hp, reduceCtorEq] at h
    cases h
    exact .staleUnclaims hp
  case unlock w =>
    cases signal <;> simp only [switchStep, hp, reduceCtorEq] at h
    cases h
    exact .unlocks hp
  case discard w handle =>
    cases signal <;> simp only [switchStep, hp, reduceCtorEq] at h
    cases h
    exact .discards hp
  case unclaimDiscarded w c =>
    cases signal <;> simp only [switchStep, hp, reduceCtorEq] at h
    cases h
    exact .discardUnclaims hp
  all_goals cases signal <;> simp [switchStep, hp] at h

theorem controlStep_cases (h : s.controlStep clock signal = some t) : s.ControlStep clock t := by
  unfold controlStep at h
  cases hb : s.probeStep clock signal
  case some =>
    obtain rfl : _ = t := by simpa [hb] using h
    exact probeStep_cases hb
  case none =>
    cases hw : s.switchStep clock signal
    case some =>
      obtain rfl : _ = t := by simpa [hb, hw] using h
      exact switchStep_cases hw
    case none => exact idleStep_cases (by simpa [hb, hw] using h)

theorem captures_setCapture (s : State) {c : Camera} (own : CaptureThread) :
    (s.setCapture c own).captures.get c = own :=
  PerCamera.get_set_self ..

-- The gate and the frames after a frame was offered.
def offered (s : State) (frame : Frame) : State :=
  { s with
    gate := (s.gate.publish frame.camera frame s.frames).2.1
    frames := (s.gate.publish frame.camera frame s.frames).2.2 }

-- The steps of the thread `own` of a camera.
inductive CaptureStep (s : State) (c : Camera) (clock : Clock) (signal : Signal)
    (own : CaptureThread) : State → Prop
  | begins : own.phase = .checkStop → ¬ s.stop.raised →
    CaptureStep s c clock signal own (s.setCapture c (own.goTo .takeOver))
  | ends : own.phase = .checkStop → s.stop.raised →
    CaptureStep s c clock signal own (s.setCapture c (own.release .exit))
  | wakes : own.phase = .sleep → signal = .timeUp → ¬ s.stop.raised →
    CaptureStep s c clock signal own (s.setCapture c (own.goTo .checkStop))
  | wakesUp : own.phase = .sleep → signal = .timeUp → s.stop.raised →
    CaptureStep s c clock signal own (s.setCapture c (own.release .exit))
  -- The device.
  | misses : own.phase = .takeOver → s.handoff.get c = none →
    CaptureStep s c clock signal own (s.setCapture c (own.goTo .checkGate))
  | takes {h} : own.phase = .takeOver → s.handoff.get c = some h → own.lease = none →
    CaptureStep s c clock signal own ({ s with handoff := s.handoff.set c none }.setCapture c
      { own with lease := some h, phase := .checkGate })
  | replaces {h old} : own.phase = .takeOver → s.handoff.get c = some h → own.lease = some old →
    CaptureStep s c clock signal own ({ s with handoff := s.handoff.set c none }.setCapture c
      { own with lease := some h, phase := .close old .checkGate })
  | yields : own.phase = .checkGate → s.gate.active ≠ c →
    CaptureStep s c clock signal own
      (s.setCapture c ({ own with failures := 0, degraded := false }.release .sleep))
  | goesOn : own.phase = .checkGate → s.gate.active = c → own.lease.isSome →
    CaptureStep s c clock signal own (s.setCapture c (own.goTo .reading))
  | needs : own.phase = .checkGate → s.gate.active = c → own.lease = none →
    CaptureStep s c clock signal own (s.setCapture c (own.goTo .claim))
  | passes : own.phase = .claim → s.claims.claim? c = none →
    CaptureStep s c clock signal own (s.setCapture c (own.goTo .sleep))
  | claims {claims} : own.phase = .claim → s.claims.claim? c = some claims →
    CaptureStep s c clock signal own ({ s with
      claims := claims, devices := (s.devices.begin c).2 }.setCapture c
      (own.goTo (.opening (s.devices.begin c).1)))
  | opens {h} : own.phase = .opening h →
    CaptureStep s c clock signal own ({ s with devices := s.devices.arrive h }.setCapture c
      { own with lease := some h, phase := .reading })
  | fails {h e} : own.phase = .opening h →
    CaptureStep s c clock signal own ({ s with devices := s.devices.refuse h }.setCapture c
      (own.goTo (.failed e true)))
  | late {h} : own.phase = .opening h →
    CaptureStep s c clock signal own ({ s with devices := s.devices.abandon h }.setCapture c
      (own.goTo (.failed (.openTimeout (s.deviceName c) s.config.capture.openTimeout) true)))
  | closes {h next} : own.phase = .close h next →
    CaptureStep s c clock signal own ({ s with devices := s.devices.close h }.setCapture c
      (own.goTo (.unclaim next)))
  | unclaims {next} : own.phase = .unclaim next →
    CaptureStep s c clock signal own ({ s with claims := s.claims.release c }.setCapture c
      (own.goOn next))
  -- An image.
  | reads {image luma} : own.phase = .reading →
    measured s.jpeg s.config.capture.activeSampleStride (own.sequence + 1) image = .ok luma →
    CaptureStep s c clock signal own (s.setCapture c
      ({ own with sequence := own.sequence + 1 }.goTo (.publish image luma)))
  | publishes {image luma n} : own.phase = .publish image luma →
    (s.gate.publish c ⟨image, c, own.sequence, clock.wall⟩ s.frames).1 = .ok (.published n) →
    own.degraded = false →
    CaptureStep s c clock signal own
      ((s.offered ⟨image, c, own.sequence, clock.wall⟩).setCapture c
        ({ own with failures := 0 }.afterPublish luma))
  | recovers {image luma n} : own.phase = .publish image luma →
    (s.gate.publish c ⟨image, c, own.sequence, clock.wall⟩ s.frames).1 = .ok (.published n) →
    own.degraded = true →
    CaptureStep s c clock signal own
      ((s.offered ⟨image, c, own.sequence, clock.wall⟩).setCapture c
        ({ own with failures := 0, degraded := false }.goTo (.recover luma)))
  | withholds {image luma} : own.phase = .publish image luma →
    (∀ n, (s.gate.publish c ⟨image, c, own.sequence, clock.wall⟩ s.frames).1 ≠
      .ok (.published n)) →
    CaptureStep s c clock signal own
      ((s.offered ⟨image, c, own.sequence, clock.wall⟩).setCapture c (own.goTo .sleep))
  | clears {luma} : own.phase = .recover luma → s.lock = none →
    CaptureStep s c clock signal own ({ s with
      controller := s.controller.setCaptureDegraded c false none }.setCapture c
      (own.afterPublish luma))
  | samples {value} : own.phase = .sample value → s.lock = none →
    (s.controller.observe ⟨c, value, clock.moment⟩).1 = none →
    CaptureStep s c clock signal own ({ s with
      controller := (s.controller.observe ⟨c, value, clock.moment⟩).2 }.setCapture c
      (own.goTo .sleep))
  | wants {value transition} : own.phase = .sample value → s.lock = none →
    (s.controller.observe ⟨c, value, clock.moment⟩).1 = some transition →
    CaptureStep s c clock signal own ({ s with
      controller := (s.controller.observe ⟨c, value, clock.moment⟩).2 }.setCapture c
      (own.goTo (.request transition)))
  | requests {transition} : own.phase = .request transition →
    CaptureStep s c clock signal own ({ s with
      requests := s.requests ++ [transition] }.setCapture c (own.goTo .sleep))
  -- A failure.
  | readFails {e} : own.phase = .reading →
    CaptureStep s c clock signal own (s.setCapture c (own.goTo (.failed e false)))
  | counts {e bare} : own.phase = .failed e bare →
    own.failures + 1 < s.config.capture.maxFailedReads →
    CaptureStep s c clock signal own
      (s.setCapture c ({ own with failures := own.failures + 1 }.endFailure bare))
  | recounts {e bare} : own.phase = .failed e bare →
    ¬ own.failures + 1 < s.config.capture.maxFailedReads → own.degraded = true →
    CaptureStep s c clock signal own
      (s.setCapture c ({ own with failures := own.failures + 1 }.afterReport
        s.config.capture.maxFailedReads bare))
  | gives {e bare} : own.phase = .failed e bare →
    ¬ own.failures + 1 < s.config.capture.maxFailedReads → own.degraded = false →
    CaptureStep s c clock signal own
      (s.setCapture c ({ own with failures := own.failures + 1, degraded := true }.goTo
        (.report (captureFailureText c e) bare)))
  | reports {text bare} : own.phase = .report text bare → s.lock = none →
    CaptureStep s c clock signal own ({ s with
      controller := s.controller.setCaptureDegraded c true (some text) }.setCapture c
      (own.afterReport s.config.capture.maxFailedReads bare))

theorem offerFrame_cases {c : Camera} {image : Image} {luma : Option Float}
    (hp : (s.captures.get c).phase = .publish image luma) :
    s.CaptureStep c clock signal (s.captures.get c) (s.offerFrame c clock.wall image luma) := by
  unfold offerFrame
  dsimp only
  split
  case h_1 hn =>
    split
    case isTrue hd  => exact .recovers hp hn hd
    case isFalse hd => exact .publishes hp hn (by simpa using hd)
  case h_2 hn => exact .withholds hp hn

theorem countFailure_cases {c : Camera} {e : SourceError} {bare : Bool}
    (hp : (s.captures.get c).phase = .failed e bare) :
    s.CaptureStep c clock signal (s.captures.get c) (s.countFailure c e bare) := by
  unfold countFailure
  dsimp only
  split
  case isTrue hl => exact .counts hp hl
  case isFalse hl =>
    split
    case isTrue hd  => exact .recounts hp hl hd
    case isFalse hd => exact .gives hp hl (by simpa using hd)

theorem captureStep_cases {c : Camera} (h : s.captureStep c clock signal = some t) :
    s.CaptureStep c clock signal (s.captures.get c) t := by
  cases hp : (s.captures.get c).phase
  case notStarted | exited => cases signal <;> simp [captureStep, hp] at h
  case checkStop =>
    cases signal <;> simp only [captureStep, hp, reduceCtorEq] at h
    split at h
    case isTrue hr  => cases h; exact .ends hp hr
    case isFalse hr => cases h; exact .begins hp hr
  case takeOver =>
    cases signal <;> simp only [captureStep, hp, reduceCtorEq] at h
    split at h
    case h_1 hh => cases h; exact .misses hp hh
    case h_2 hh =>
      split at h
      case h_1 hl => cases h; exact .takes hp hh hl
      case h_2 hl => cases h; exact .replaces hp hh hl
  case checkGate =>
    cases signal <;> simp only [captureStep, hp, reduceCtorEq] at h
    split at h
    case isFalse ha => cases h; exact .yields hp ha
    case isTrue ha =>
      cases h
      split
      case isTrue hl  => exact .goesOn hp ha hl
      case isFalse hl => exact .needs hp ha (by simpa using hl)
  case claim =>
    cases signal <;> simp only [captureStep, hp, reduceCtorEq] at h
    split at h
    case h_1 hc => cases h; exact .passes hp hc
    case h_2 hc => cases h; exact .claims hp hc
  case opening =>
    cases signal <;> simp only [captureStep, hp, reduceCtorEq] at h
    case opened   => cases h; exact .opens hp
    case refused  => cases h; exact .fails hp
    case openLate => cases h; exact .late hp
  case reading =>
    cases signal
    case read answer =>
      cases answer <;> simp only [captureStep, hp] at h
      case error => cases h; exact .readFails hp
      case ok =>
        split at h
        case h_1 hm => cases h; exact .reads hp hm
        case h_2    => cases h
    all_goals simp [captureStep, hp] at h
  case publish =>
    cases signal <;> simp only [captureStep, hp, reduceCtorEq] at h
    exact Option.some.inj h ▸ offerFrame_cases hp
  case recover =>
    cases signal <;> simp only [captureStep, hp, reduceCtorEq] at h
    obtain ⟨hl, rfl⟩ := withController_eq_some h
    exact .clears hp hl
  case sample value =>
    cases signal <;> simp only [captureStep, hp, reduceCtorEq] at h
    obtain ⟨hl, rfl⟩ := withController_eq_some h
    split
    case h_1 hw => exact .wants hp hl hw
    case h_2 hw => exact .samples hp hl hw
  case request =>
    cases signal <;> simp only [captureStep, hp, reduceCtorEq] at h
    cases h
    exact .requests hp
  case failed =>
    cases signal <;> simp only [captureStep, hp, reduceCtorEq] at h
    exact Option.some.inj h ▸ countFailure_cases hp
  case report =>
    cases signal <;> simp only [captureStep, hp, reduceCtorEq] at h
    obtain ⟨hl, rfl⟩ := withController_eq_some h
    exact .reports hp hl
  case close =>
    cases signal <;> simp only [captureStep, hp, reduceCtorEq] at h
    cases h
    exact .closes hp
  case unclaim =>
    cases signal <;> simp only [captureStep, hp, reduceCtorEq] at h
    cases h
    exact .unclaims hp
  case sleep =>
    cases signal <;> simp only [captureStep, hp, reduceCtorEq] at h
    split at h
    case isTrue hr  => cases h; exact .wakesUp hp rfl hr
    case isFalse hr => cases h; exact .wakes hp rfl hr

inductive DetectorStep (s : State) (clock : Clock) : State → Prop
  | exits : s.detector.phase = .checkStop ∨ s.detector.phase = .sleep → s.stop.raised →
    DetectorStep s clock (s.setDetector .exited)
  | begins : s.detector.phase = .checkStop → ¬ s.stop.raised →
    DetectorStep s clock (s.setDetector .look)
  | misses : s.detector.phase = .look → s.frames.latest.1 = none →
    DetectorStep s clock ({ s with frames := s.frames.latest.2 }.setDetector .sleep)
  | knows {frame} : s.detector.phase = .look → s.frames.latest.1 = some frame →
    frame.sequence = s.detector.lastSeen →
    DetectorStep s clock ({ s with frames := s.frames.latest.2 }.setDetector .sleep)
  | sees {frame} : s.detector.phase = .look → s.frames.latest.1 = some frame →
    frame.sequence ≠ s.detector.lastSeen →
    DetectorStep s clock { s with
      frames := s.frames.latest.2, detector := ⟨.infer frame, frame.sequence⟩ }
  | infers {frame boxes} : s.detector.phase = .infer frame →
    DetectorStep s clock (s.setDetector (.publish boxes frame.sequence))
  | fails {frame} : s.detector.phase = .infer frame →
    DetectorStep s clock (s.setDetector .sleep)
  | publishes {boxes sequence} : s.detector.phase = .publish boxes sequence →
    DetectorStep s clock ({ s with
      detections := (s.gate.publishIfOpen (Detection.mk
        (Box.keepBest s.config.channels.maxDetections.toNat boxes) clock.wall sequence)
        s.detections).2 }.setDetector .sleep)
  | wakes : s.detector.phase = .sleep → ¬ s.stop.raised →
    DetectorStep s clock (s.setDetector .checkStop)

theorem detectorStep_cases (h : s.detectorStep clock signal = some t) :
    s.DetectorStep clock t := by
  cases hp : s.detector.phase
  case checkStop =>
    cases signal <;> simp only [detectorStep, hp, reduceCtorEq] at h
    cases h
    split
    case isTrue hr  => exact .exits (.inl hp) hr
    case isFalse hr => exact .begins hp hr
  case look =>
    cases signal <;> simp only [detectorStep, hp, reduceCtorEq] at h
    split at h
    case h_2 hn => cases h; exact .misses hp hn
    case h_1 frame hn =>
      split at h
      case isTrue hs  => cases h; exact .knows hp hn hs
      case isFalse hs => cases h; exact .sees hp hn hs
  case infer frame =>
    cases signal
    case inferred answer =>
      cases answer <;> simp only [detectorStep, hp] at h
      case ok    => cases h; exact .infers hp
      case error => cases h; exact .fails hp
    all_goals simp [detectorStep, hp] at h
  case publish boxes sequence =>
    cases signal <;> simp only [detectorStep, hp, reduceCtorEq] at h
    cases h
    exact .publishes hp
  case sleep =>
    cases signal <;> simp only [detectorStep, hp, reduceCtorEq] at h
    cases h
    split
    case isTrue hr  => exact .exits (.inr hp) hr
    case isFalse hr => exact .wakes hp hr
  case notStarted | exited => cases signal <;> simp [detectorStep, hp] at h

inductive OwnerStep (s : State) : State → Prop
  | raises {deadline} : s.owner = .stopping deadline →
    OwnerStep s { s with stop := s.stop.trigger, owner := .joining Thread.all [] deadline }
  | joins {thread left late deadline} : s.owner = .joining (thread :: left) late deadline →
    s.hasExited thread → OwnerStep s { s with owner := .joining left late deadline }
  | abandons {thread left late deadline} : s.owner = .joining (thread :: left) late deadline →
    OwnerStep s { s with owner := .joining left (late ++ [thread]) deadline }
  | joined {late deadline} : s.owner = .joining [] late deadline →
    OwnerStep s { s with owner := .clearing Camera.all late }
  | passes {c left late} : s.owner = .clearing (c :: left) late → s.handoff.get c = none →
    OwnerStep s { s with owner := .clearing left late }
  | takes {c left late h} : s.owner = .clearing (c :: left) late → s.handoff.get c = some h →
    OwnerStep s { s with handoff := s.handoff.set c none, owner := .close h left late }
  | closes {h left late} : s.owner = .close h left late →
    OwnerStep s { s with devices := s.devices.close h, owner := .unclaim h.camera left late }
  | unclaims {c left late} : s.owner = .unclaim c left late →
    OwnerStep s { s with claims := s.claims.release c, owner := .clearing left late }
  | ends {late} : s.owner = .clearing [] late → OwnerStep s { s with owner := .stopped late }

theorem ownerStep_cases (h : s.ownerStep signal = some t) : s.OwnerStep t := by
  cases ho : s.owner
  case idle | running | stopped => cases signal <;> simp [ownerStep, ho] at h
  case stopping deadline =>
    cases signal <;> simp only [ownerStep, ho, reduceCtorEq] at h
    cases h
    exact .raises ho
  case joining left late deadline =>
    cases left <;> cases signal <;> simp only [ownerStep, ho, reduceCtorEq] at h
    case nil.go      => cases h; exact .joined ho
    case cons.timeUp => cases h; exact .abandons ho
    case cons.go =>
      split at h
      case isTrue he  => cases h; exact .joins ho he
      case isFalse    => cases h
  case clearing left late =>
    cases left <;> cases signal <;> simp only [ownerStep, ho, reduceCtorEq] at h
    case nil.go => cases h; exact .ends ho
    case cons.go =>
      split at h
      case h_1 hs => cases h; exact .passes ho hs
      case h_2 hs => cases h; exact .takes ho hs
  case close handle left late =>
    cases signal <;> simp only [ownerStep, ho, reduceCtorEq] at h
    cases h
    exact .closes ho
  case unclaim c left late =>
    cases signal <;> simp only [ownerStep, ho, reduceCtorEq] at h
    cases h
    exact .unclaims ho

theorem control_mem_onward (thread : Thread) : .control ∈ thread.onward := by
  cases thread
  case capture c => cases c <;> decide
  all_goals decide

-- If a thread cannot be started, neither has the control thread been.
theorem control_of_fresh {thread : Thread} (h : thread.onward.all s.isFresh) :
    s.control.phase = .starting := by
  have hc : s.control.isFresh := List.all_eq_true.mp h _ (control_mem_onward thread)
  rw [ControlThread.isFresh] at hc
  split at hc
  case h_1 hp => exact hp
  case h_2    => cases hc

theorem phase_withdraw (s : State) (thread : Thread) :
    (s.withdraw thread.onward).control.phase = .exited := by
  have hc : (s.withdraw thread.onward).control = { s.control with phase := .exited } :=
    if_pos (control_mem_onward thread)
  rw [hc]

-- A detector that is not started has done nothing.
theorem withdraw_detector {thread : Thread} (h : thread.onward.all s.isFresh) :
    (s.withdraw thread.onward).detector = s.detector ∨
    s.detector.phase = .checkStop ∧
      (s.withdraw thread.onward).detector = s.detector.goTo .exited := by
  by_cases hm : .detector ∈ thread.onward
  case neg => exact .inl (if_neg hm)
  case pos =>
    have hf : s.detector.isFresh := List.all_eq_true.mp h _ hm
    refine .inr ⟨?_, if_pos hm⟩
    cases hp : s.detector.phase <;> simp [DetectorThread.isFresh, hp] at hf
    rfl

theorem eq_of_isFresh {own : CaptureThread} (h : own.isFresh) :
    own = CaptureThread.new.goTo .checkStop := by
  obtain ⟨phase, lease, sequence, failures, degraded⟩ := own
  cases phase <;> simp [CaptureThread.isFresh] at h
  obtain ⟨⟨⟨rfl, rfl⟩, rfl⟩, rfl⟩ := h
  rfl

theorem captures_withdraw (s : State) (threads : List Thread) (c : Camera) :
    (s.withdraw threads).captures.get c =
      if .capture c ∈ threads then (s.captures.get c).goTo .exited else s.captures.get c := by
  cases c <;> rfl

-- A capture thread that is not started has done nothing.
theorem withdraw_captures {thread : Thread} (h : thread.onward.all s.isFresh) (c : Camera) :
    (s.withdraw thread.onward).captures.get c = s.captures.get c ∨
    s.captures.get c = CaptureThread.new.goTo .checkStop ∧
      (s.withdraw thread.onward).captures.get c = CaptureThread.new.goTo .exited := by
  rw [captures_withdraw]
  split
  case isFalse => exact .inl rfl
  case isTrue hm =>
    have hn := eq_of_isFresh (List.all_eq_true.mp h _ hm)
    exact .inr ⟨hn, congrArg (·.goTo .exited) hn⟩

-- So nothing is missed that cannot be told of a thread at its beginning and at its end.
theorem withdraw_congr {α : Type} (f : CaptureThread → α) {thread : Thread}
    (h : thread.onward.all s.isFresh) (c : Camera)
    (hf : f (CaptureThread.new.goTo .exited) = f (CaptureThread.new.goTo .checkStop) := by rfl) :
    f ((s.withdraw thread.onward).captures.get c) = f (s.captures.get c) := by
  obtain hc | ⟨hs, hc⟩ := withdraw_captures h c
  · rw [hc]
  · rw [hs, hc, hf]

-- A thread that cannot be started ends the pipeline while it starts.
theorem spawnFails_eq {thread : Thread} {reason : String} {now : Moment}
    (h : (s.spawnFails thread reason now).map (·.2) = some t) :
    s.owner = .running ∧ thread.onward.all s.isFresh ∧ t = { s.withdraw thread.onward with
      gate := s.gate.close
      stop := s.stop.trigger
      owner := .joining thread.before [] (now.after s.config.pacing.shutdownTimeout) } := by
  obtain ⟨_, hs, rfl⟩ := Option.map_eq_some_iff.mp h
  unfold spawnFails at hs
  split at hs
  case h_2 => cases hs
  case h_1 ho =>
    split at hs
    case isTrue hf => cases hs; exact ⟨ho, hf, rfl⟩
    case isFalse   => cases hs

-- A caller keeps hold of the controller if its command asks for a switch. A command that is refused
-- asks for none and changes nothing.
theorem command_eq {command : SwitchCommand} {now : Moment}
    (h : (s.command command now).map (·.2) = some t) :
    s.lock = none ∧ t = { s with
      controller := (s.controller.step (.command command now)).2
      lock := (s.controller.step (.command command now)).1.wanted?.map .caller } := by
  obtain ⟨⟨answer, _⟩, hc, rfl⟩ := Option.map_eq_some_iff.mp h
  unfold State.command at hc
  split at hc
  case h_1 => cases hc
  case h_2 hl =>
    refine ⟨hl, ?_⟩
    cases hv : command.validate
    case error fault =>
      rw [Controller.apply_of_error hv] at hc
      cases hc
      rw [Controller.step, Controller.apply_of_error hv]
      exact congrArg (fun lock => { s with lock := lock }) hl
    case ok =>
      have ⟨wanted, controller, ha, _⟩ := s.controller.apply_of_ok now hv
      rw [ha] at hc
      cases hc
      rw [Controller.step, ha]
      rfl

end DayNight.Pipeline.State
