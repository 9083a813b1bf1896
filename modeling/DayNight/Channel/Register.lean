import DayNight.Channel.Error
import DayNight.Record.Basic

namespace DayNight

structure Published (α : Type) where
  sequence : UInt64
  value : α
  deriving DecidableEq, Repr, Inhabited

-- `capacity` bounds the byte length of a value's record, although no record is stored.
structure Register (α : Type) where
  capacity : Option UInt64
  sequence : UInt64
  stored : Option (Published α)
  deriving DecidableEq, Repr, Inhabited

namespace Register

variable {α : Type}

def empty (capacity : Option UInt64) : Register α := ⟨capacity, 0, none⟩

def publish [Record α] (r : Register α) (value : α) : Except ChannelError UInt64 × Register α :=
  let length := Record.encodedLength value
  match r.capacity with
  | some capacity =>
    if capacity.toNat < length then (.error (.payloadTooLarge length capacity.toNat), r)
    else (.ok (r.sequence + 1), ⟨capacity, r.sequence + 1, some ⟨r.sequence + 1, value⟩⟩)
  | none => (.ok (r.sequence + 1), ⟨none, r.sequence + 1, some ⟨r.sequence + 1, value⟩⟩)

def latest (r : Register α) : Option (Published α) := r.stored

end Register

end DayNight
