import DayNight.Setting.Environment
import DayNight.Setting.Reading
import DayNight.Toml.Document

namespace DayNight.Setting

open Config (Scalar Sections)

def ofScalar : Scalar → Setting
  | .flag b => flag b
  | .natural n => integer n
  | .float x => float x
  | .text s => text s

def sectionsLayer (sections : Sections) : List (String × Setting) :=
  sections.map fun (part, fields) =>
    (part, table (fields.map fun (key, value) => (key, ofScalar value)))

-- The library of the program. Its sources are keys with their settings, in order.
def library : Config.Library where
  Source := List (String × Setting)
  Value := Setting
  written sections := some (sectionsLayer sections)
  toml := Toml.document?
  environment := environmentLayer
  build sources := some (sources.foldl overlay (table []))
  format := format

end DayNight.Setting
