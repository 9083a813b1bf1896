namespace DayNight.Text

-- The code points with the Unicode property `White_Space`, as closed ranges.
def blankRanges : List (Nat × Nat) :=
  [(0x09, 0x0D), (0x20, 0x20), (0x85, 0x85), (0xA0, 0xA0), (0x1680, 0x1680), (0x2000, 0x200A),
   (0x2028, 0x2029), (0x202F, 0x202F), (0x205F, 0x205F), (0x3000, 0x3000)]

def isBlank (c : Char) : Bool :=
  blankRanges.any fun (first, last) => first ≤ c.toNat && c.toNat ≤ last

def trimChars (cs : List Char) : List Char :=
  ((cs.dropWhile isBlank).reverse.dropWhile isBlank).reverse

def trim (s : String) : String :=
  String.ofList (trimChars s.toList)

-- Only the letters `A` to `Z` change.
def lowerAscii (s : String) : String :=
  String.ofList (s.toList.map Char.toLower)

def normalized (s : String) : String :=
  lowerAscii (trim s)

-- The lower case of a key. Besides `A` to `Z` only the Kelvin sign has an ASCII letter as its lower
-- case, and keys with other letters name nothing.
def lowerKey (key : String) : String :=
  String.ofList (key.toList.map fun c => if c.toNat = 0x212A then 'k' else c.toLower)

end DayNight.Text
