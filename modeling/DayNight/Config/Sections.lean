import DayNight.Config.Basic

namespace DayNight

namespace Config

-- What a field is written as.
inductive Scalar
  | flag (b : Bool)
  | natural (n : Nat)
  | float (x : Float)
  | text (s : String)
  deriving Inhabited

namespace Scalar

def word32 (n : UInt32) : Scalar := natural n.toNat

def word64 (n : UInt64) : Scalar := natural n.toNat

def device : Device → Scalar
  | .index n => natural n.toNat
  | .path p => text p

end Scalar

-- Sections with their fields, all by name.
abbrev Sections := List (String × List (String × Scalar))

open Scalar in
def sections (c : Config) : Sections := [
  ("capture", [
    ("day_device", device c.capture.devices.day),
    ("night_device", device c.capture.devices.night),
    ("width", word32 c.capture.width),
    ("height", word32 c.capture.height),
    ("fps", word32 c.capture.framesPerSecond),
    ("format", text c.capture.format.name),
    ("buffer_count", word32 c.capture.bufferCount),
    ("open_timeout_ms", word64 c.capture.openTimeoutMillis),
    ("read_timeout_ms", word64 c.capture.readTimeoutMillis),
    ("max_failed_reads", word32 c.capture.maxFailedReads),
    ("active_sample_stride", word64 c.capture.activeSampleStride)]),
  ("switcher", [
    ("day_to_night_threshold", float c.switcher.dayToNightThreshold),
    ("night_to_day_threshold", float c.switcher.nightToDayThreshold),
    ("day_to_night_hold_ms", word64 c.switcher.dayToNightHoldMillis),
    ("night_to_day_hold_ms", word64 c.switcher.nightToDayHoldMillis),
    ("probe_interval_ms", word64 c.switcher.probeIntervalMillis),
    ("probe_timeout_ms", word64 c.switcher.probeTimeoutMillis),
    ("warmup_frames", word32 c.switcher.warmupFrames),
    ("initial_camera", text c.switcher.initialCamera.name),
    ("initial_mode", text c.switcher.initialMode.name)]),
  ("pipeline", [
    ("detection_interval_ms", word64 c.pacing.detectionIntervalMillis),
    ("shutdown_timeout_ms", word64 c.pacing.shutdownTimeoutMillis)]),
  ("channels", [
    ("backend", text c.channels.storage.name),
    ("shm_dir", text c.channels.directory),
    ("frame_capacity", word64 c.channels.frameCapacity),
    ("max_detections", word64 c.channels.maxDetections)]),
  ("logging", [
    ("filter", text c.logging.filter),
    ("uptime_timer", flag c.logging.uptimeTimer)])]

end Config

end DayNight
