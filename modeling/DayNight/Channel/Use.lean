import DayNight.Channel.Mounted

namespace DayNight

namespace Channel

inductive Operation (α : Type)
  | publish (value : α)
  | latest
  | latestSequence
  | stats

inductive Answer (α : Type)
  | published (outcome : Except ChannelError UInt64)
  | newest (publication : Option (Published α))
  | sequence (number : UInt64)
  | stats (stats : ChannelStats)

variable {α : Type} [Record α]

def step (c : Channel α) : Operation α → Answer α × Channel α
  | .publish value =>
    let (outcome, c) := c.publish value
    (.published outcome, c)
  | .latest =>
    let (newest, c) := c.latest
    (.newest newest, c)
  | .latestSequence =>
    let (sequence, c) := c.latestSequence
    (.sequence sequence, c)
  | .stats => (.stats c.stats, c)

end Channel

namespace Mounted

-- A channel, and the directory in which its file lies if it has one.
structure Site (α : Type) where
  mounted : Mounted α
  shelf : Shelf

namespace Site

open Channel (Operation Answer)

variable {α : Type} [Record α]

-- What the channel is at this moment, whoever wrote its file.
def current (s : Site α) : Channel α := s.mounted.current s.shelf

def step (s : Site α) : Operation α → Answer α × Site α
  | .publish value =>
    let (outcome, mounted, shelf) := s.mounted.publish value s.shelf
    (.published outcome, ⟨mounted, shelf⟩)
  | .latest =>
    let (newest, mounted) := s.mounted.latest s.shelf
    (.newest newest, { s with mounted := mounted })
  | .latestSequence =>
    let (sequence, mounted) := s.mounted.latestSequence s.shelf
    (.sequence sequence, { s with mounted := mounted })
  | .stats => (.stats s.mounted.channel.stats, s)

def after (s : Site α) (operations : List (Operation α)) : Site α :=
  operations.foldl (fun s operation => (s.step operation).2) s

@[simp] theorem after_nil (s : Site α) : s.after [] = s := rfl

theorem after_concat (s : Site α) (operations : List (Operation α)) (operation : Operation α) :
    s.after (operations ++ [operation]) = ((s.after operations).step operation).2 := by
  simp [after]

end Site

end Mounted

end DayNight
