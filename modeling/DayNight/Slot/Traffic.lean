import DayNight.Channel.Traffic
import DayNight.Slot.Reading
import DayNight.Slot.Writing

namespace DayNight.Slot

variable {α : Type} [Record α]

-- What a reader answers once it is done.
def Reader.result? : Reader → Option (Option (Published α))
  | finished copy => some (copy.bind Copy.decode?)
  | _ => none

def medium (capacity : UInt64) : Medium α where
  Memory := Slot
  Store  := Store
  Reader := Reader
  Port   := Handle
  fits value := decide (Record.encodedLength value ≤ capacity.toNat)
  stores s next value := publicationStores s.generation next (Record.encode value)
  apply := Slot.apply
  home := .creator capacity
  attach s := (s.attach (Record.kind α)).toOption
  reopen s := (s.attach (Record.kind α)).toOption.map (·.sequence)
  start := .starting 0
  load port s reader := reader.step port.capacity s
  result? := Reader.result?

end DayNight.Slot
