import DayNight.Json.Number

namespace DayNight

-- A text of a JSON document; none if its escapes leave half a surrogate pair, which matters only to
-- those who ask for the text.
abbrev JsonText := Option String

inductive Json
  | null
  | bool (b : Bool)
  | number (n : JsonNumber)
  | string (s : JsonText)
  | array (items : List Json)
  | object (members : List (JsonText × Json))
  deriving Repr, Inhabited

end DayNight
