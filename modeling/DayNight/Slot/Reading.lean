import DayNight.Channel.Register
import DayNight.Slot.Basic

namespace DayNight.Slot

def attempts : Nat := 1000

-- A copy of a record, and the number stored with it.
structure Copy where
  sequence : UInt64
  record : Bytes
  deriving DecidableEq, Repr, Inhabited

-- Where a reader is. `attempt` counts its failed tries; `before` is the generation that it saw
-- first; a copy in progress has its latest byte first.
inductive Reader
  | starting (attempt : Nat)
  | sawGeneration (attempt : Nat) (before : UInt64)
  | sawSequence (attempt : Nat) (before sequence : UInt64)
  | copying (attempt : Nat) (before sequence : UInt64) (left : Nat) (copied : Bytes)
  | finished (result : Option Copy)
  deriving DecidableEq, Repr, Inhabited

namespace Reader

def step (capacity : UInt64) (s : Slot) : Reader → Reader
  | starting attempt =>
    if attempts ≤ attempt then finished none
    else if s.generation = 0 then finished none
    else if s.generation % 2 = 1 then starting (attempt + 1)
    else sawGeneration attempt s.generation
  | sawGeneration attempt before => sawSequence attempt before s.sequence
  | sawSequence attempt before sequence =>
    if capacity < s.recordLength then starting (attempt + 1)
    else copying attempt before sequence s.recordLength.toNat []
  | copying attempt before sequence (left + 1) copied =>
    copying attempt before sequence left (s.record[copied.length]?.getD 0 :: copied)
  | copying attempt before sequence 0 copied =>
    if s.generation = before then finished (some ⟨sequence, copied.reverse⟩)
    else starting (attempt + 1)
  | finished result => finished result

-- At most so many steps while nobody else touches the slot.
def run (capacity : UInt64) (s : Slot) : Nat → Reader → Reader
  | 0, reader => reader
  | _ + 1, finished result => finished result
  | fuel + 1, reader => run capacity s fuel (reader.step capacity s)

end Reader

-- Enough steps for every try: three loads each at most, and one copy.
def readSteps (s : Slot) : Nat :=
  3 * attempts + 3 + min s.recordLength.toNat s.record.size

def read (s : Slot) (h : Handle) : Option Copy :=
  match Reader.run h.capacity s s.readSteps (.starting 0) with
  | .finished result => result
  | _ => none

def Copy.decode? {α : Type} [Record α] (copy : Copy) : Option (Published α) :=
  (Record.decode copy.record).toOption.map fun value => ⟨copy.sequence, value⟩

def latest {α : Type} [Record α] (s : Slot) (h : Handle) : Option (Published α) :=
  (s.read h).bind Copy.decode?

end DayNight.Slot
