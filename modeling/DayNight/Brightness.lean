import DayNight.Camera
import DayNight.Duration

namespace DayNight

inductive BrightnessZone
  | dark
  | dim
  | normal
  | bright
  deriving DecidableEq, Repr

namespace BrightnessZone

def name : BrightnessZone → String
  | dark => "dark"
  | dim => "dim"
  | normal => "normal"
  | bright => "bright"

def classify (value : Float) : BrightnessZone :=
  if value < 50 then dark
  else if value < 70 then dim
  else if value < 180 then normal
  else bright

end BrightnessZone

structure BrightnessSample where
  camera : Camera
  value : Float
  takenAt : Moment

structure BrightnessStat where
  latest : Option Float
  average : Option Float
  samples : Nat
  -- Whether a reading was ever recorded, and with it its time.
  updated : Bool
  deriving Inhabited

namespace BrightnessStat

def empty : BrightnessStat := ⟨none, none, 0, false⟩

-- Moves the average by the reading's share of all readings so far.
def record (s : BrightnessStat) (value : Float) : BrightnessStat :=
  let samples := s.samples + 1
  let previous := s.average.getD value
  { latest := some value
    average := some (previous + (value - previous) / Float.ofNat samples)
    samples := samples
    updated := true }

end BrightnessStat

end DayNight
