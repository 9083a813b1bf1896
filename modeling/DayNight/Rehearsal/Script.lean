import DayNight.Detection.Walking
import DayNight.Pipeline.Devices
import DayNight.Source

namespace DayNight.Rehearsal

inductive Item
  | image (i : Image)
  | failure (reason : String)
  | timeout
  deriving Repr

def Item.answer (limit : Duration) : Item → Except SourceError Image
  | image i => .ok i
  | failure reason => .error (.reading reason)
  | timeout => .error (.readTimeout limit)

structure ScriptedCamera where
  -- The answers to come; a read takes the first, whichever handle it goes through.
  queue : List Item
  refusal : Option String
  delay : Duration
  -- Whether reads no longer wait for answers to come.
  released : Bool
  attempts : Nat
  opens : Nat
  deriving Repr

namespace ScriptedCamera

def new : ScriptedCamera := ⟨[], none, .zero, false, 0, 0⟩

def feed (c : ScriptedCamera) (items : List Item) : ScriptedCamera :=
  { c with queue := c.queue ++ items }

def setOpens (c : ScriptedCamera) (refusal : Option String) (delay : Duration) : ScriptedCamera :=
  { c with refusal := refusal, delay := delay }

def release (c : ScriptedCamera) : ScriptedCamera := { c with released := true }

end ScriptedCamera

-- An open under way: since when, and why it fails if it does. A failure comes at once.
structure TimedOpen where
  handle : Pipeline.Handle
  began : Moment
  refusal : Option String
  deriving Repr

inductive ScriptedDetector
  | walking (detector : WalkingDetector)
  | finding (boxes : List Box)
  | failing (text : String)

def ScriptedDetector.infer (d : ScriptedDetector) (frame : Frame) :
    Except DetectorError (List Box) :=
  match d with
  | walking detector => detector.infer frame.image.width frame.image.height frame.sequence
  | finding boxes => .ok boxes
  | failing text => .error ⟨text⟩

end DayNight.Rehearsal
