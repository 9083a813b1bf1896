import DayNight.Command
import DayNight.Config.Format
import DayNight.Json.Reading
import DayNight.Json.Shape

namespace DayNight

def Device.ofJson? (j : Json) : Option Device :=
  match j.naturalBelow? UInt32.size with
  | some n => some (.index (UInt32.ofNat n))
  | none => j.text?.map .path

namespace Config

def jsonFormat : Format Json where
  fields := Json.fields?
  device := Device.ofJson?
  naturalBelow := Json.naturalBelow?
  float := Json.float?
  flag := Json.bool?
  text := Json.text?
  choice := Json.choice?

def ofJson? (j : Json) : Option Config := read jsonFormat j

end Config

namespace SwitchCommand

-- The mode is required; camera and reason may be missing or null.
def ofJson? (j : Json) : Option SwitchCommand := do
  match ← j.fields? ["mode", "camera", "reason"] with
  | [some mode, camera, reason] =>
    let mode ← Config.jsonFormat.mode mode
    let camera ← Json.optional? Config.jsonFormat.camera camera
    let reason ← Json.optional? Json.text? reason
    return ⟨mode, camera, reason⟩
  | _ => none

end SwitchCommand

end DayNight
