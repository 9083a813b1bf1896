import DayNight.Config.Library

namespace DayNight.Config

inductive File
  | unnamed
  | missing
  | contents (text : String)
  deriving DecidableEq, Repr

inductive LoadError
  -- The file is missing or no TOML, or a value is not of its field's type.
  | unreadable
  | invalid (fault : ConfigFault)

-- `PETCAM__CAPTURE__FPS` sets `fps` of the section `capture`.
def variableNames : VariableNames := ⟨"PETCAM", "__", "__"⟩

variable (library : Library)

def File.sources? : File → Option (List library.Source)
  | unnamed => some []
  | missing => none
  | contents text => (library.toml text).map fun source => [source]

-- The defaults, what the file says, and above them what the variables say.
def sources? (file : File) (environment : List (String × String)) :
    Option (List library.Source) := do
  let defaults ← library.written (sections {})
  let named ← file.sources? library
  return defaults :: named ++ [library.environment variableNames environment]

-- The configuration that the layers make together, whether or not it is valid.
def converted? (file : File) (environment : List (String × String)) : Option Config := do
  let sources ← sources? library file environment
  let merged ← library.build sources
  read library.format merged

def load (file : File) (environment : List (String × String)) : Except LoadError Config :=
  match converted? library file environment with
  | none => .error .unreadable
  | some config =>
    match config.validate with
    | .error fault => .error (.invalid fault)
    | .ok () => .ok config

end DayNight.Config
