import DayNight.Pipeline.Creation
import DayNight.Pipeline.Step
import DayNight.Rehearsal.Script

namespace DayNight

open Pipeline

-- Since when a thread is in its present turn, and in its present phase.
structure Turn where
  began : Moment
  since : Moment
  deriving DecidableEq, Repr, Inhabited

-- A pipeline on scripted cameras under a clock of its own. Steps take no time; time passes only
-- when every thread sleeps or waits, and then up to the next moment at which one of them can go on.
structure Rehearsal where
  state : State
  shelf : Shelf
  frameFile : Option String
  detectionFile : Option String
  now : Moment
  cameras : PerCamera Rehearsal.ScriptedCamera
  detector : Rehearsal.ScriptedDetector
  inferences : Nat
  opens : List Rehearsal.TimedOpen
  captureTurns : PerCamera Turn
  detectorTurn : Turn
  controlTurn : Turn

namespace Rehearsal

def create (jpeg : JpegDecoder) (config : Config) (detector : ScriptedDetector) :
    Except PipelineError Rehearsal :=
  match Pipeline.create jpeg config .empty with
  | (.error e, _) => .error e
  | (.ok made, shelf) =>
    .ok {
      state := made.state
      shelf := shelf
      frameFile := made.frameFile
      detectionFile := made.detectionFile
      now := .start
      cameras := .both .new
      detector := detector
      inferences := 0
      opens := []
      captureTurns := .both default
      detectorTurn := default
      controlTurn := default }

-- The wall-clock time at which a rehearsal begins: 2026-01-01.
def firstWallTime : WallTime := ⟨1767225600000000000⟩

def clock (r : Rehearsal) : Clock := ⟨r.now, ⟨firstWallTime.nanos + r.now.nanos⟩⟩

inductive Readiness
  -- It can, with this signal; the rehearsal is as the answer from outside leaves it.
  | ready (signal : Signal) (after : Rehearsal)
  | waiting (moment : Moment)
  | blocked

def wakeAt (r : Rehearsal) (moment : Moment) (signal : Signal) : Readiness :=
  if moment ≤ r.now then .ready signal r else .waiting moment

def countOpen (r : Rehearsal) (c : Camera) : Rehearsal :=
  { r with cameras := r.cameras.modify c fun camera => { camera with opens := camera.opens + 1 } }

def forgetOpen (r : Rehearsal) (handle : Handle) : Rehearsal :=
  { r with opens := r.opens.filter fun o => o.handle ≠ handle }

-- How long an open takes, as the opens of its camera are set by now.
def delay (r : Rehearsal) (o : TimedOpen) : Duration := (r.cameras.get o.handle.camera).delay

def due (r : Rehearsal) (o : TimedOpen) : Moment := o.began.after (r.delay o)

-- Waits for an open, no longer than `limit` from when it began.
def awaitOpen (r : Rehearsal) (handle : Handle) (limit : Duration) : Readiness :=
  match r.opens.find? fun o => o.handle = handle with
  | none => .blocked
  | some o =>
    match o.refusal with
    | some reason =>
      .ready (.refused (.opening (r.state.deviceName handle.camera) reason)) (r.forgetOpen handle)
    | none =>
      match answerWithin limit (r.delay o) (some (.ok ())) with
      | some answer =>
        ((r.forgetOpen handle).countOpen handle.camera).wakeAt (r.due o) (.ofOpen (some answer))
      | none => r.wakeAt (o.began.after limit) (.ofOpen none)

def awaitRead (r : Rehearsal) (c : Camera) (since : Moment) (limit : Duration) : Readiness :=
  let camera := r.cameras.get c
  match camera.queue with
  | item :: rest =>
    .ready (.read (item.answer limit))
      { r with cameras := r.cameras.set c { camera with queue := rest } }
  | [] =>
    if camera.released then .ready (.read (.error (.reading "released"))) r
    else r.wakeAt (since.after limit) (.read (.error (.readTimeout limit)))

def leastTurn : Duration := .ofMicros 100

-- Sleeps until the turn has lasted for `interval`, or until the stop signal.
def sleepTurn (r : Rehearsal) (turn : Turn) (interval : Duration) : Readiness :=
  if r.state.stop.raised then .ready .timeUp r
  else r.wakeAt (turn.began.after ⟨max interval.nanos leastTurn.nanos⟩) .timeUp

def captureReadiness (r : Rehearsal) (c : Camera) : Readiness :=
  let turn := r.captureTurns.get c
  let capture := r.state.config.capture
  match (r.state.captures.get c).phase with
  | .notStarted => .blocked
  | .exited => .blocked
  | .opening handle => r.awaitOpen handle capture.openTimeout
  | .reading => r.awaitRead c turn.since capture.readTimeout
  | .sleep => r.sleepTurn turn capture.frameInterval
  | _ => .ready .go r

def detectorReadiness (r : Rehearsal) : Readiness :=
  match r.state.detector.phase with
  | .notStarted => .blocked
  | .exited => .blocked
  | .infer frame =>
    .ready (.inferred (r.detector.infer frame.value)) { r with inferences := r.inferences + 1 }
  | .sleep => r.sleepTurn r.detectorTurn r.state.config.pacing.detectionInterval
  | _ => .ready .go r

def claimPause : Duration := .ofMillis 5

def controlReadiness (r : Rehearsal) : Readiness :=
  let since := r.controlTurn.since
  match r.state.control.phase with
  | .notStarted => .blocked
  | .exited => .blocked
  | .probeOpening handle => r.awaitOpen handle r.state.config.capture.openTimeout
  | .probeReading handle => r.awaitRead handle.camera since r.state.config.switcher.probeTimeout
  | .opening _ handle limit => r.awaitOpen handle limit
  | .claimWait _ _ =>
    if r.state.stop.raised then .ready .timeUp r else r.wakeAt (since.after claimPause) .timeUp
  | .receive moment =>
    if r.state.requests.isEmpty then r.wakeAt moment .timeUp else .ready .go r
  | _ => .ready .go r

def readiness (r : Rehearsal) : Thread → Readiness
  | .capture c => r.captureReadiness c
  | .detector => r.detectorReadiness
  | .control => r.controlReadiness

def ownerReadiness (r : Rehearsal) : Readiness :=
  match r.state.owner with
  | .idle => .blocked
  | .running => .blocked
  | .stopped _ => .blocked
  | .joining (thread :: _) _ deadline =>
    let budget := r.state.config.pacing.shutdownTimeout
    match joinThread thread.name (r.state.hasExited thread) budget with
    | .ok () => .ready .go r
    | .error _ => r.wakeAt deadline .timeUp
  | _ => .ready .go r

-- Notes the open that a step has begun, if it has.
def noticeOpen (r : Rehearsal) (before : Devices) : Rehearsal :=
  if r.state.devices.nextId = before.nextId then r
  else
    match r.state.devices.opening with
    | [] => r
    | handle :: _ =>
      let camera := r.cameras.get handle.camera
      let timed : TimedOpen := ⟨handle, r.now, camera.refusal⟩
      { r with
        cameras := r.cameras.set handle.camera { camera with attempts := camera.attempts + 1 }
        opens := timed :: r.opens }

def Turn.step (turn : Turn) (now : Moment) (begins : Bool) : Turn :=
  ⟨if begins then now else turn.began, now⟩

def noticeTurn (r : Rehearsal) (before : State) : Thread → Rehearsal
  | .capture c =>
    let begins := (before.captures.get c).phase matches .checkStop
    { r with captureTurns := r.captureTurns.modify c fun turn => Turn.step turn r.now begins }
  | .detector =>
    let begins := before.detector.phase matches .checkStop
    { r with detectorTurn := Turn.step r.detectorTurn r.now begins }
  | .control => { r with controlTurn := Turn.step r.controlTurn r.now false }

def event? (r : Rehearsal) (action : Action) : Option Rehearsal :=
  (r.state.step ⟨r.clock, action⟩).map fun s => { r with state := s }

def threadStep? (r : Rehearsal) (thread : Thread) : Option Rehearsal :=
  match r.readiness thread with
  | .ready signal after =>
    (after.event? (.thread thread signal)).map fun next =>
      (next.noticeOpen r.state.devices).noticeTurn r.state thread
  | _ => none

-- An open that was given up and is through.
def lateStep? (r : Rehearsal) : Option Rehearsal := do
  let o ← r.opens.find? fun o => o.handle ∈ r.state.devices.abandoned ∧ r.due o ≤ r.now
  let r ← ((r.forgetOpen o.handle).countOpen o.handle.camera).event? (.arriveLate o.handle)
  r.event? (.closeStray o.handle)

def ownerStep? (r : Rehearsal) : Option Rehearsal :=
  match r.ownerReadiness with
  | .ready signal after => after.event? (.owner signal)
  | _ => none

def step? (r : Rehearsal) : Option Rehearsal :=
  Thread.all.findSome? r.threadStep? <|> r.lateStep? <|> r.ownerStep?

def nextMoment? (r : Rehearsal) : Option Moment :=
  let moment : Readiness → Option Nat
    | .waiting moment => some moment.nanos
    | _ => none
  let late := r.opens.filterMap fun o =>
    if o.handle ∈ r.state.devices.abandoned then some (r.due o).nanos else none
  let all := Thread.all.filterMap (fun t => moment (r.readiness t))
    ++ late ++ (moment r.ownerReadiness).toList
  (all.min?).map Moment.mk

-- Lets the pipeline run until `done` holds, and tells whether it does; but not beyond `limit`, and
-- for no more than `fuel` steps.
def runUntil (done : Rehearsal → Bool) (limit : Moment) : Nat → Rehearsal → Bool × Rehearsal
  | 0, r => (done r, r)
  | fuel + 1, r =>
    match r.step? with
    | some next => runUntil done limit fuel next
    | none =>
      if done r then (true, r)
      else
        match r.nextMoment? with
        | some moment =>
          if moment ≤ limit then runUntil done limit fuel { r with now := moment }
          else (false, { r with now := limit })
        | none => (false, { r with now := limit })

-- More steps than the threads can make in the time.
def stepsWithin (time : Duration) : Nat := 1000 * (time.nanos / leastTurn.nanos + 1)

def runFor (r : Rehearsal) (time : Duration) (done : Rehearsal → Bool) : Bool × Rehearsal :=
  runUntil done (r.now.after time) (stepsWithin time) r

end Rehearsal

end DayNight
