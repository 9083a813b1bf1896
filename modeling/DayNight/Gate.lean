import DayNight.Channel.Basic

namespace DayNight

-- Only frames of the active camera pass, after the first few that it needs to warm up.
structure Gate where
  active : Camera
  isOpen : Bool
  warmupLeft : UInt32
  deriving DecidableEq, Repr, Inhabited

inductive GateOutcome
  | published (sequence : UInt64)
  | warmingUp (left : UInt32)
  | inactive
  | closed
  deriving DecidableEq, Repr

namespace Gate

def openFor (active : Camera) : Gate := ⟨active, true, 0⟩

-- Hands the right to publish to `camera`, whose next `warmup` frames are dropped.
def switchTo (g : Gate) (camera : Camera) (warmup : UInt32) : Gate :=
  { g with active := camera, warmupLeft := warmup }

def close (g : Gate) : Gate := { g with isOpen := false }

def publish (g : Gate) (camera : Camera) (frame : Frame) (channel : FrameChannel) :
    Except ChannelError GateOutcome × Gate × FrameChannel :=
  if !g.isOpen then (.ok .closed, g, channel)
  else if camera ≠ g.active then (.ok .inactive, g, channel)
  else if 0 < g.warmupLeft then
    (.ok (.warmingUp (g.warmupLeft - 1)), { g with warmupLeft := g.warmupLeft - 1 }, channel)
  else
    let (answer, channel) := channel.publish frame
    (answer.map .published, g, channel)

-- The warm-up is all that an offer changes of the gate.
theorem publish_gate {g : Gate} {camera : Camera} {frame : Frame} {channel : FrameChannel} :
    (g.publish camera frame channel).2.1.isOpen = g.isOpen ∧
    (g.publish camera frame channel).2.1.active = g.active := by
  unfold publish
  repeat' split
  all_goals exact ⟨rfl, rfl⟩

def publishIfOpen {α : Type} [Record α] (g : Gate) (value : α) (channel : Channel α) :
    Except ChannelError (Option UInt64) × Channel α :=
  if g.isOpen then
    let (answer, channel) := channel.publish value
    (answer.map some, channel)
  else (.ok none, channel)

end Gate

end DayNight
