import DayNight.Text.Blank
import DayNight.Text.Numeral

namespace DayNight

inductive Device
  | index (n : UInt32)
  | path (p : String)
  deriving DecidableEq, Repr, Inhabited

namespace Device

-- A number below `2 ^ 32` is an index and everything else a path, both without outer blanks.
def parse (s : String) : Device :=
  let text := Text.trim s
  match Text.unsignedBelow? UInt32.size text.toList with
  | some n => index (UInt32.ofNat n)
  | none => path text

def display : Device → String
  | index n => "#" ++ toString n.toNat
  | path p => p

def file : Device → String
  | index n => "/dev/video" ++ toString n.toNat
  | path p => p

end Device

end DayNight
