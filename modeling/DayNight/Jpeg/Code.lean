import DayNight.Bytes

namespace DayNight.Jpeg

-- One code of a prefix code: its bits as a number, how many they are, and its symbol.
structure Codeword where
  length : Nat
  code : Nat
  symbol : UInt8
  deriving DecidableEq, Repr

-- The codes for the given counts by length. `length` is the length of the first count and `code`
-- the first code of that length. Each code is the one before it plus one, with zeros appended where
-- the length grows.
def codewords (length code : Nat) : List Nat → Bytes → List Codeword
  | [], _ => []
  | count :: counts, symbols =>
    (symbols.take count).zipIdx.map (fun (symbol, i) => ⟨length, code + i, symbol⟩)
      ++ codewords (length + 1) (2 * (code + count)) counts (symbols.drop count)

-- Whether the codes for the given counts fit their lengths. The code of ones alone stays free.
def codesFit (length code : Nat) : List Nat → Bool
  | [] => true
  | count :: counts =>
    (count = 0 || code + count < 1 <<< length) && codesFit (length + 1) (2 * (code + count)) counts

-- Whether the bits begin with this code; the first of them is the highest.
def Codeword.begins (word : Codeword) (bits : UInt64) : Bool :=
  bits >>> UInt64.ofNat (64 - word.length) = UInt64.ofNat word.code

end DayNight.Jpeg
