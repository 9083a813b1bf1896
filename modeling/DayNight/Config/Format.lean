import DayNight.Config.Basic

namespace DayNight.Config

-- How the values `σ` of a format are read. Every reading may fail. Which fields there are, and what
-- a missing one means, is the same for all formats.
structure Format (σ : Type) where
  -- The fields of a record, one entry for each name.
  fields : List String → σ → Option (List (Option σ))
  device : σ → Option Device
  naturalBelow : Nat → σ → Option Nat
  float : σ → Option Float
  flag : σ → Option Bool
  text : σ → Option String
  choice : List String → σ → Option String

namespace Format

variable {σ : Type}

-- The value of a field, or the default where it is missing.
def field {α : Type} (read : σ → Option α) (default : α) : Option σ → Option α
  | none => some default
  | some value => read value

def word32 (f : Format σ) (value : σ) : Option UInt32 :=
  (f.naturalBelow UInt32.size value).map UInt32.ofNat

def word64 (f : Format σ) (value : σ) : Option UInt64 :=
  (f.naturalBelow UInt64.size value).map UInt64.ofNat

def oneOf {α : Type} (f : Format σ) (all : List α) (name : α → String) (value : σ) : Option α := do
  let chosen ← f.choice (all.map name) value
  all.find? fun a => name a = chosen

def camera (f : Format σ) : σ → Option Camera := f.oneOf Camera.all Camera.name

def mode (f : Format σ) : σ → Option ControlMode := f.oneOf [.auto, .manual] ControlMode.name

def pixelFormat (f : Format σ) : σ → Option PixelFormat := f.oneOf PixelFormat.all PixelFormat.name

def storage (f : Format σ) : σ → Option Storage :=
  f.oneOf [.inProcess, .sharedMemory] Storage.name

end Format

namespace Capture

def fieldNames : List String :=
  ["day_device", "night_device", "width", "height", "fps", "format", "buffer_count",
   "open_timeout_ms", "read_timeout_ms", "max_failed_reads", "active_sample_stride"]

def read {σ : Type} (f : Format σ) (value : σ) : Option Capture := do
  let default : Capture := {}
  match ← f.fields fieldNames value with
  | [day, night, width, height, fps, format, buffers, openMillis, readMillis, failed, stride] =>
    let day ← Format.field f.device default.devices.day day
    let night ← Format.field f.device default.devices.night night
    let width ← Format.field f.word32 default.width width
    let height ← Format.field f.word32 default.height height
    let fps ← Format.field f.word32 default.framesPerSecond fps
    let format ← Format.field f.pixelFormat default.format format
    let buffers ← Format.field f.word32 default.bufferCount buffers
    let openMillis ← Format.field f.word64 default.openTimeoutMillis openMillis
    let readMillis ← Format.field f.word64 default.readTimeoutMillis readMillis
    let failed ← Format.field f.word32 default.maxFailedReads failed
    let stride ← Format.field f.word64 default.activeSampleStride stride
    return ⟨⟨day, night⟩, width, height, fps, format, buffers, openMillis, readMillis, failed,
      stride⟩
  | _ => none

end Capture

namespace Switcher

def fieldNames : List String :=
  ["day_to_night_threshold", "night_to_day_threshold", "day_to_night_hold_ms",
   "night_to_day_hold_ms", "probe_interval_ms", "probe_timeout_ms", "warmup_frames",
   "initial_camera", "initial_mode"]

def read {σ : Type} (f : Format σ) (value : σ) : Option Switcher := do
  let default : Switcher := {}
  match ← f.fields fieldNames value with
  | [down, up, downHold, upHold, interval, timeout, warmup, camera, mode] =>
    let down ← Format.field f.float default.dayToNightThreshold down
    let up ← Format.field f.float default.nightToDayThreshold up
    let downHold ← Format.field f.word64 default.dayToNightHoldMillis downHold
    let upHold ← Format.field f.word64 default.nightToDayHoldMillis upHold
    let interval ← Format.field f.word64 default.probeIntervalMillis interval
    let timeout ← Format.field f.word64 default.probeTimeoutMillis timeout
    let warmup ← Format.field f.word32 default.warmupFrames warmup
    let camera ← Format.field f.camera default.initialCamera camera
    let mode ← Format.field f.mode default.initialMode mode
    return ⟨down, up, downHold, upHold, interval, timeout, warmup, camera, mode⟩
  | _ => none

end Switcher

namespace Pacing

def fieldNames : List String := ["detection_interval_ms", "shutdown_timeout_ms"]

def read {σ : Type} (f : Format σ) (value : σ) : Option Pacing := do
  let default : Pacing := {}
  match ← f.fields fieldNames value with
  | [interval, timeout] =>
    let interval ← Format.field f.word64 default.detectionIntervalMillis interval
    let timeout ← Format.field f.word64 default.shutdownTimeoutMillis timeout
    return ⟨interval, timeout⟩
  | _ => none

end Pacing

namespace Channels

def fieldNames : List String := ["backend", "shm_dir", "frame_capacity", "max_detections"]

def read {σ : Type} (f : Format σ) (value : σ) : Option Channels := do
  let default : Channels := {}
  match ← f.fields fieldNames value with
  | [storage, directory, capacity, detections] =>
    let storage ← Format.field f.storage default.storage storage
    let directory ← Format.field f.text default.directory directory
    let capacity ← Format.field f.word64 default.frameCapacity capacity
    let detections ← Format.field f.word64 default.maxDetections detections
    return ⟨storage, directory, capacity, detections⟩
  | _ => none

end Channels

namespace Logging

def fieldNames : List String := ["filter", "uptime_timer"]

def read {σ : Type} (f : Format σ) (value : σ) : Option Logging := do
  let default : Logging := {}
  match ← f.fields fieldNames value with
  | [filter, timer] =>
    let filter ← Format.field f.text default.filter filter
    let timer ← Format.field f.flag default.uptimeTimer timer
    return ⟨filter, timer⟩
  | _ => none

end Logging

def sectionNames : List String := ["capture", "switcher", "pipeline", "channels", "logging"]

def read {σ : Type} (f : Format σ) (value : σ) : Option Config := do
  match ← f.fields sectionNames value with
  | [capture, switcher, pacing, channels, logging] =>
    let capture ← Format.field (Capture.read f) {} capture
    let switcher ← Format.field (Switcher.read f) {} switcher
    let pacing ← Format.field (Pacing.read f) {} pacing
    let channels ← Format.field (Channels.read f) {} channels
    let logging ← Format.field (Logging.read f) {} logging
    return ⟨capture, switcher, pacing, channels, logging⟩
  | _ => none

end DayNight.Config
