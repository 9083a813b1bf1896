namespace DayNight

structure Duration where
  nanos : Nat
  deriving DecidableEq, Repr, Inhabited

namespace Duration

def zero : Duration := ⟨0⟩

def ofSeconds (n : Nat) : Duration := ⟨n * 1000000000⟩

def ofMillis (n : Nat) : Duration := ⟨n * 1000000⟩

def ofMicros (n : Nat) : Duration := ⟨n * 1000⟩

def seconds (d : Duration) : Nat := d.nanos / 1000000000

def subsecond (d : Duration) : Nat := d.nanos % 1000000000

instance : LE Duration := ⟨fun a b => a.nanos ≤ b.nanos⟩

instance : LT Duration := ⟨fun a b => a.nanos < b.nanos⟩

instance (a b : Duration) : Decidable (a ≤ b) := inferInstanceAs (Decidable (a.nanos ≤ b.nanos))

instance (a b : Duration) : Decidable (a < b) := inferInstanceAs (Decidable (a.nanos < b.nanos))

instance : Add Duration := ⟨fun a b => ⟨a.nanos + b.nanos⟩⟩

-- The digits of `part / 10 ^ places` after the point, without trailing zeros; nothing at all if
-- `part` is zero.
def fraction (part places : Nat) : String :=
  let digits := (toString part).toList
  let padded := List.replicate (places - digits.length) '0' ++ digits
  let kept := (padded.reverse.dropWhile (· == '0')).reverse
  if kept = [] then "" else "." ++ String.ofList kept

def inUnits (nanos places : Nat) (unit : String) : String :=
  toString (nanos / Nat.pow 10 places) ++ fraction (nanos % Nat.pow 10 places) places ++ unit

-- The exact decimal text in the largest of `s`, `ms`, `µs` and `ns` with a whole part, so `1.5s`,
-- `30ms`, `1.05µs`; the empty span is `0ns`.
def text (d : Duration) : String :=
  if 1000000000 ≤ d.nanos then inUnits d.nanos 9 "s"
  else if 1000000 ≤ d.nanos then inUnits d.nanos 6 "ms"
  else if 1000 ≤ d.nanos then inUnits d.nanos 3 "µs"
  else inUnits d.nanos 0 "ns"

end Duration

-- A point on the monotonic clock that all parts of a pipeline share.
structure Moment where
  nanos : Nat
  deriving DecidableEq, Repr, Inhabited

namespace Moment

instance : LE Moment := ⟨fun a b => a.nanos ≤ b.nanos⟩

instance : LT Moment := ⟨fun a b => a.nanos < b.nanos⟩

instance (a b : Moment) : Decidable (a ≤ b) := inferInstanceAs (Decidable (a.nanos ≤ b.nanos))

instance (a b : Moment) : Decidable (a < b) := inferInstanceAs (Decidable (a.nanos < b.nanos))

def start : Moment := ⟨0⟩

def after (m : Moment) (d : Duration) : Moment := ⟨m.nanos + d.nanos⟩

-- The time from `earlier` to `m`; zero if `m` comes first.
def since (m earlier : Moment) : Duration := ⟨m.nanos - earlier.nanos⟩

end Moment

-- A point of wall-clock time: nanoseconds since the beginning of 1970, before it negative.
structure WallTime where
  nanos : Int
  deriving DecidableEq, Repr, Inhabited

namespace WallTime

def distance (a b : WallTime) : Duration := ⟨(a.nanos - b.nanos).natAbs⟩

def since (t earlier : WallTime) : Duration := ⟨(t.nanos - earlier.nanos).toNat⟩

end WallTime

end DayNight
