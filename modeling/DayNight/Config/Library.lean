import DayNight.Config.Format
import DayNight.Config.Sections

namespace DayNight.Config

-- How the variables are named that set fields: all begin with `start` and `afterStart`, and
-- `between` stands between the section and the field.
structure VariableNames where
  start      : String
  afterStart : String
  between    : String
  deriving DecidableEq, Repr

def VariableNames.name (names : VariableNames) (part key : String) : String :=
  names.start ++ names.afterStart ++ part ++ names.between ++ key

-- What is used of the library that puts configurations together. Everything may fail but to name
-- the variables as a source, which are not read before the sources are put together.
structure Library where
  Source      : Type
  -- What the sources are merged into.
  Value       : Type
  written     : Sections → Option Source
  toml        : String → Option Source
  environment : VariableNames → List (String × String) → Source
  -- Merges sources, the later ones over those before them.
  build       : List Source → Option Value
  format      : Format Value

end DayNight.Config
