import DayNight.Channel.Register
import DayNight.Slot.Basic

namespace DayNight.Slot

inductive Store
  | generation (value : UInt64)
  | sequence (value : UInt64)
  | recordLength (value : UInt64)
  | recordByte (offset : Nat) (value : UInt8)
  deriving DecidableEq, Repr

-- A store beyond the end of the memory has no effect.
def apply (s : Slot) : Store → Slot
  | .generation value => { s with generation := value }
  | .sequence value => { s with sequence := value }
  | .recordLength value => { s with recordLength := value }
  | .recordByte offset value => { s with record := s.record.setIfInBounds offset value }

def applyAll (s : Slot) (stores : List Store) : Slot := stores.foldl apply s

def recordStores : Nat → Bytes → List Store
  | _, [] => []
  | offset, b :: bs => .recordByte offset b :: recordStores (offset + 1) bs

-- The odd generation during a publication that starts at generation `g`.
def busy (g : UInt64) : UInt64 := g ||| 1

-- All stores of one publication, in order, when `g` is the generation at its start. The generation
-- is odd from the first store to the last, so a reader that sees the same even generation before
-- and after its copy has seen no store of a publication.
def publicationStores (g sequence : UInt64) (record : Bytes) : List Store :=
  [.generation (busy g), .sequence sequence, .recordLength (UInt64.ofNat record.length)]
    ++ recordStores 0 record
    ++ [.generation (busy g + 1)]

-- Publishes a value under the number after the last one that the handle knows of, unless its record
-- is longer than the capacity.
def publish {α : Type} [Record α] (s : Slot) (h : Handle) (value : α) :
    Except ChannelError UInt64 × Handle × Slot :=
  let length := Record.encodedLength value
  if h.capacity.toNat < length then
    (.error (.payloadTooLarge length h.capacity.toNat), h, s)
  else
    let next := h.sequence + 1
    let stores := publicationStores s.generation next (Record.encode value)
    (.ok next, { h with sequence := next }, s.applyAll stores)

end DayNight.Slot
