import DayNight.Channel.Register
import DayNight.Record.Detection
import DayNight.Record.Frame
import DayNight.Slot.Reading
import DayNight.Slot.Writing

namespace DayNight

-- Where the newest value lies: in a register of the process, or in a slot that other processes can
-- read.
inductive Backend (α : Type)
  | inProcess (register : Register α)
  | sharedMemory (handle : Slot.Handle) (slot : Slot)
  deriving DecidableEq, Repr, Inhabited

namespace Backend

variable {α : Type}

def name : Backend α → String
  | inProcess _ => "in-process"
  | sharedMemory _ _ => "shared-memory"

def publish [Record α] (b : Backend α) (value : α) : Except ChannelError UInt64 × Backend α :=
  match b with
  | inProcess register =>
    let (answer, register) := register.publish value
    (answer, inProcess register)
  | sharedMemory handle slot =>
    let (answer, handle, slot) := slot.publish handle value
    (answer, sharedMemory handle slot)

-- The number of the last publication that the writer knows of.
def sequence : Backend α → UInt64
  | inProcess register => register.sequence
  | sharedMemory handle _ => handle.sequence

def latest [Record α] : Backend α → Option (Published α)
  | inProcess register => register.latest
  | sharedMemory handle slot => slot.latest handle

end Backend

-- Counted without a bound, as no run comes to 2 ^ 64 operations.
structure ChannelStats where
  published : Nat
  rejected : Nat
  reads : Nat
  deriving DecidableEq, Repr, Inhabited

structure Channel (α : Type) where
  backend : Backend α
  stats : ChannelStats
  deriving DecidableEq, Repr, Inhabited

namespace Channel

variable {α : Type}

def unused (backend : Backend α) : Channel α := ⟨backend, ⟨0, 0, 0⟩⟩

-- A channel within the process; `capacity` bounds the length of a record.
def inProcess (capacity : Option UInt64) : Channel α := unused (.inProcess (.empty capacity))

def creatorOf [Record α] (capacity : UInt64) : Channel α :=
  unused (.sharedMemory (.creator capacity) (.empty (Record.kind α) capacity))

def attached (handle : Slot.Handle) (slot : Slot) : Channel α := unused (.sharedMemory handle slot)

def publish [Record α] (c : Channel α) (value : α) : Except ChannelError UInt64 × Channel α :=
  match c.backend.publish value with
  | (.ok sequence, backend) =>
    (.ok sequence, ⟨backend, { c.stats with published := c.stats.published + 1 }⟩)
  | (.error e, backend) =>
    (.error e, ⟨backend, { c.stats with rejected := c.stats.rejected + 1 }⟩)

def latest [Record α] (c : Channel α) : Option (Published α) × Channel α :=
  (c.backend.latest, { c with stats := { c.stats with reads := c.stats.reads + 1 } })

-- The number of the newest value, or zero; this too is a read.
def latestSequence [Record α] (c : Channel α) : UInt64 × Channel α :=
  let (newest, c) := c.latest
  ((newest.map (·.sequence)).getD 0, c)

def slot? (c : Channel α) : Option Slot :=
  match c.backend with
  | .inProcess _ => none
  | .sharedMemory _ slot => some slot

-- The channel as it is after others have changed its slot.
def withSlot (c : Channel α) (slot : Slot) : Channel α :=
  match c.backend with
  | .inProcess _ => c
  | .sharedMemory handle _ => { c with backend := .sharedMemory handle slot }

end Channel

abbrev FrameChannel := Channel Frame

abbrev DetectionChannel := Channel Detection

end DayNight
