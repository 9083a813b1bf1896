import DayNight.Controller.Basic

namespace DayNight

structure CameraStatus where
  activeCamera : Camera
  controlMode : ControlMode
  manualTarget : Option Camera
  dayBrightness : Option Float
  nightBrightness : Option Float
  dayHoldElapsed : Duration
  nightHoldElapsed : Duration
  degraded : Bool
  day : BrightnessStat
  night : BrightnessStat
  dayZone : Option BrightnessZone
  dayToNightThreshold : Float
  nightToDayThreshold : Float
  dayToNightHold : Duration
  nightToDayHold : Duration
  lastSwitchReason : String
  switchCount : Nat
  transitionPending : Bool
  lastError : Option String

def Controller.status (c : Controller) : CameraStatus where
  activeCamera := c.active
  controlMode := c.mode
  manualTarget := c.manualTarget
  dayBrightness := c.brightness.day.latest
  nightBrightness := c.brightness.night.latest
  dayHoldElapsed := c.below.elapsed
  nightHoldElapsed := c.above.elapsed
  degraded := c.degraded
  day := c.brightness.day
  night := c.brightness.night
  dayZone := c.brightness.day.latest.map BrightnessZone.classify
  dayToNightThreshold := c.config.dayToNightThreshold
  nightToDayThreshold := c.config.nightToDayThreshold
  dayToNightHold := c.config.dayToNightHold
  nightToDayHold := c.config.nightToDayHold
  lastSwitchReason := c.lastSwitchReason
  switchCount := c.switchCount
  transitionPending := c.pending.isSome
  lastError := c.lastError

end DayNight
