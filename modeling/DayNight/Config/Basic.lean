import DayNight.Camera
import DayNight.Decimal.Shortest
import DayNight.Device
import DayNight.Image

namespace DayNight

namespace Config

inductive Storage
  | inProcess
  | sharedMemory
  deriving DecidableEq, Repr, Inhabited

def Storage.name : Storage → String
  | inProcess => "in_process"
  | sharedMemory => "shared_memory"

structure Capture where
  devices : PerCamera Device := ⟨.index 0, .index 1⟩
  width : UInt32 := 1280
  height : UInt32 := 720
  framesPerSecond : UInt32 := 30
  format : PixelFormat := .mjpeg
  bufferCount : UInt32 := 4
  openTimeoutMillis : UInt64 := 2000
  readTimeoutMillis : UInt64 := 1000
  -- After so many failed reads in a row the pipeline counts as degraded.
  maxFailedReads : UInt32 := 30
  -- The brightness of the active camera is measured once in so many frames.
  activeSampleStride : UInt64 := 8
  deriving DecidableEq, Inhabited

structure Switcher where
  dayToNightThreshold : Float := 40
  nightToDayThreshold : Float := 70
  dayToNightHoldMillis : UInt64 := 10000
  nightToDayHoldMillis : UInt64 := 10000
  probeIntervalMillis : UInt64 := 2000
  probeTimeoutMillis : UInt64 := 1000
  warmupFrames : UInt32 := 3
  initialCamera : Camera := .day
  initialMode : ControlMode := .auto
  deriving Inhabited

structure Pacing where
  detectionIntervalMillis : UInt64 := 100
  shutdownTimeoutMillis : UInt64 := 2000
  deriving DecidableEq, Inhabited

structure Channels where
  storage : Storage := .inProcess
  directory : String := "/dev/shm"
  frameCapacity : UInt64 := 1920 * 1080 * 3 / 2
  maxDetections : UInt64 := 10
  deriving DecidableEq, Inhabited

structure Logging where
  filter : String := "petcam=info"
  uptimeTimer : Bool := true
  deriving DecidableEq, Inhabited

end Config

structure Config where
  capture : Config.Capture := {}
  switcher : Config.Switcher := {}
  pacing : Config.Pacing := {}
  channels : Config.Channels := {}
  logging : Config.Logging := {}
  deriving Inhabited

namespace Config

def Capture.frameInterval (c : Capture) : Duration :=
  ⟨1000000000 / max c.framesPerSecond.toNat 1⟩

def Capture.openTimeout (c : Capture) : Duration := .ofMillis c.openTimeoutMillis.toNat

def Capture.readTimeout (c : Capture) : Duration := .ofMillis c.readTimeoutMillis.toNat

def Switcher.dayToNightHold (s : Switcher) : Duration := .ofMillis s.dayToNightHoldMillis.toNat

def Switcher.nightToDayHold (s : Switcher) : Duration := .ofMillis s.nightToDayHoldMillis.toNat

def Switcher.probeInterval (s : Switcher) : Duration := .ofMillis s.probeIntervalMillis.toNat

def Switcher.probeTimeout (s : Switcher) : Duration := .ofMillis s.probeTimeoutMillis.toNat

def Pacing.detectionInterval (p : Pacing) : Duration := .ofMillis p.detectionIntervalMillis.toNat

def Pacing.shutdownTimeout (p : Pacing) : Duration := .ofMillis p.shutdownTimeoutMillis.toNat

end Config

inductive ConfigFault
  | thresholdNotFinite
  | thresholdsNotOrdered (dayToNight nightToDay : Float)
  | probeIntervalZero
  | framesPerSecondZero
  | maxFailedReadsZero
  | shutdownTimeoutZero
  | capacityZero

namespace ConfigFault

def detail : ConfigFault → String
  | thresholdNotFinite => "brightness thresholds must be finite"
  | thresholdsNotOrdered dayToNight nightToDay =>
    "day_to_night_threshold (" ++ Decimal.text dayToNight
      ++ ") must be below night_to_day_threshold (" ++ Decimal.text nightToDay ++ ")"
  | probeIntervalZero => "probe_interval_ms must be positive"
  | framesPerSecondZero => "fps must be positive"
  | maxFailedReadsZero => "max_failed_reads must be positive"
  | shutdownTimeoutZero => "shutdown_timeout_ms must be positive"
  | capacityZero => "channel capacities must be positive"

def messageFor (detail : String) : String := "invalid configuration: " ++ detail

def message (f : ConfigFault) : String := messageFor f.detail

end ConfigFault

namespace Config

def fault? (c : Config) : Option ConfigFault :=
  let s := c.switcher
  if !s.dayToNightThreshold.isFinite || !s.nightToDayThreshold.isFinite then
    some .thresholdNotFinite
  else if s.dayToNightThreshold ≥ s.nightToDayThreshold then
    some (.thresholdsNotOrdered s.dayToNightThreshold s.nightToDayThreshold)
  else if s.probeIntervalMillis = 0 then some .probeIntervalZero
  else if c.capture.framesPerSecond = 0 then some .framesPerSecondZero
  else if c.capture.maxFailedReads = 0 then some .maxFailedReadsZero
  else if c.pacing.shutdownTimeoutMillis = 0 then some .shutdownTimeoutZero
  else if c.channels.frameCapacity = 0 ∨ c.channels.maxDetections = 0 then some .capacityZero
  else none

def validate (c : Config) : Except ConfigFault Unit :=
  match c.fault? with
  | some fault => .error fault
  | none => .ok ()

end Config

end DayNight
