import DayNight.Pipeline.State

namespace DayNight.Pipeline

def requestPatience : Duration := .ofMillis 50

-- The reason of the failure when the previous owner of a device does not let it go.
def stillInUse : String := "device is still in use"

namespace State

def setControl (s : State) (phase : ControlPhase) : State :=
  { s with control := { s.control with phase := phase } }

-- Takes the switch in hand that the controller asks for, if any.
def switchOr (transition : Option Transition) (next : AfterSwitch) : ControlPhase :=
  match transition with
  | some transition => .execute ⟨transition, next⟩
  | none => next.phase

def probeStep (s : State) (clock : Clock) (signal : Signal) : Option State :=
  match s.control.phase, signal with
  | .chooseProbe, .go =>
    s.withController fun controller => s.setControl (.probeClaim controller.active.other)
  | .probeClaim c, .go =>
    match s.claims.claim? c with
    | none => some (s.setControl .retry)
    | some claims =>
      let (handle, devices) := s.devices.begin c
      some ({ s with claims := claims, devices := devices }.setControl (.probeOpening handle))
  | .probeOpening handle, .opened =>
    some ({ s with devices := s.devices.arrive handle }.setControl (.probeReading handle))
  | .probeOpening handle, .refused _ =>
    some ({ s with devices := s.devices.refuse handle }.setControl
      (.probeUnclaim handle.camera none))
  | .probeOpening handle, .openLate =>
    some ({ s with devices := s.devices.abandon handle }.setControl
      (.probeUnclaim handle.camera none))
  | .probeReading handle, .read answer =>
    match SourceError.peek s.jpeg answer with
    | .ok reading => some (s.setControl (.probeClose handle reading.toOption))
    -- Here too the thread breaks off.
    | .error _ => none
  | .probeClose handle value, .go =>
    some ({ s with devices := s.devices.close handle }.setControl
      (.probeUnclaim handle.camera value))
  | .probeUnclaim c value, .go =>
    some ({ s with claims := s.claims.release c }.setControl
      (match value with
        | some value => .probeSample c value
        | none => .retry))
  | .probeSample c value, .go =>
    s.withController fun controller =>
      let (transition, controller) := controller.observe ⟨c, value, clock.moment⟩
      { s with controller := controller }.setControl (switchOr transition .retry)
  | _, _ => none

-- The target's device is opened first. Only then the switch is reported to the controller, the gate
-- is moved and the device is left for the target's capture thread, all while the controller is
-- held, so that the gate and the controller agree for everybody else.
def switchStep (s : State) (clock : Clock) (signal : Signal) : Option State :=
  match s.control.phase, signal with
  | .execute w, .go => some (s.setControl (if s.stop.raised then w.done else .checkPending w))
  | .checkPending w, .go =>
    s.withController fun controller =>
      s.setControl
        (if controller.isPending w.transition then
          .claim w (clock.moment.after s.config.capture.openTimeout)
        else w.done)
  -- Waits for the previous owner of the device, and takes from the time to open what that costs.
  | .claim w deadline, .go =>
    let c := w.transition.target
    match s.claims.claim? c with
    | some claims =>
      let (handle, devices) := s.devices.begin c
      some ({ s with claims := claims, devices := devices }.setControl
        (.opening w handle (deadline.since clock.moment)))
    | none =>
      if deadline ≤ clock.moment then
        some (s.setControl (.reportFailure w (.opening (s.deviceName c) stillInUse)))
      else some (s.setControl (.claimWait w deadline))
  | .claimWait w deadline, .timeUp =>
    if s.stop.raised then
      some (s.setControl
        (.reportFailure w (.opening (s.deviceName w.transition.target) stillInUse)))
    else some (s.setControl (.claim w deadline))
  | .opening w handle _, .opened =>
    some ({ s with devices := s.devices.arrive handle }.setControl (.complete w handle))
  -- The claim goes before the failure is reported.
  | .opening w handle _, .refused e =>
    some ({ s with devices := s.devices.refuse handle }.setControl (.unclaim w e))
  | .opening w handle limit, .openLate =>
    some ({ s with devices := s.devices.abandon handle }.setControl
      (.unclaim w (.openTimeout (s.deviceName w.transition.target) limit)))
  | .unclaim w e, .go =>
    some ({ s with claims := s.claims.release w.transition.target }.setControl (.reportFailure w e))
  | .reportFailure w e, .go =>
    s.withController fun controller =>
      { s with controller := controller.fail w.transition e clock.moment }.setControl w.done
  | .complete w handle, .go =>
    s.withController fun controller =>
      match controller.complete w.transition with
      | (true, controller) =>
        { s with controller := controller, lock := some .control }.setControl (.moveGate w handle)
      | (false, _) => s.setControl (.discard w handle)
  -- The gate moves before the device is left for the target's thread, which would else find its
  -- camera inactive and give the device up again.
  | .moveGate w handle, .go =>
    some ({ s with gate := s.gate.switchTo w.transition.target s.config.switcher.warmupFrames
      }.setControl (.deposit w handle))
  | .deposit w handle, .go =>
    let c := w.transition.target
    let stale := s.handoff.get c
    some ({ s with handoff := s.handoff.set c (some handle) }.setControl
      (match stale with
        | some stale => .closeStale w stale
        | none => .unlock w))
  | .closeStale w handle, .go =>
    some ({ s with devices := s.devices.close handle }.setControl (.unclaimStale w handle.camera))
  | .unclaimStale w c, .go =>
    some ({ s with claims := s.claims.release c }.setControl (.unlock w))
  | .unlock w, .go => some ({ s with lock := none }.setControl w.done)
  | .discard w handle, .go =>
    some ({ s with devices := s.devices.close handle }.setControl
      (.unclaimDiscarded w handle.camera))
  | .unclaimDiscarded w c, .go =>
    some ({ s with claims := s.claims.release c }.setControl w.done)
  | _, _ => none

def idleStep (s : State) (clock : Clock) (signal : Signal) : Option State :=
  match s.control.phase, signal with
  | .starting, .go => some { s with control := ⟨.checkStop, clock.moment⟩ }
  | .checkStop, .go => some (s.setControl (if s.stop.raised then .exited else .checkTime))
  | .checkTime, .go =>
    if s.control.nextProbe ≤ clock.moment then
      some { s with
        control := ⟨.chooseProbe, clock.moment.after s.config.switcher.probeInterval⟩ }
    else some (s.setControl .wait)
  | .retry, .go =>
    s.withController fun controller =>
      let (transition, controller) := controller.poll clock.moment
      { s with controller := controller }.setControl (switchOr transition .wait)
  | .wait, .go =>
    let patience := min (s.control.nextProbe.since clock.moment).nanos requestPatience.nanos
    some (s.setControl (.receive (clock.moment.after ⟨patience⟩)))
  | .receive _, .go =>
    match s.requests with
    | [] => none
    | transition :: rest =>
      some ({ s with requests := rest }.setControl (.execute ⟨transition, .checkStop⟩))
  | .receive _, .timeUp => some (s.setControl .checkStop)
  | _, _ => none

def controlStep (s : State) (clock : Clock) (signal : Signal) : Option State :=
  s.probeStep clock signal <|> s.switchStep clock signal <|> s.idleStep clock signal

end State

end DayNight.Pipeline
