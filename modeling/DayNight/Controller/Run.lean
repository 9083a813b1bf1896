import DayNight.Controller.Basic

namespace DayNight.Controller

inductive Action
  | observe (sample : BrightnessSample)
  | poll (now : Moment)
  | command (command : SwitchCommand) (now : Moment)
  | complete (transition : Transition)
  | fail (transition : Transition) (error : SourceError) (now : Moment)
  | setCaptureDegraded (camera : Camera) (degraded : Bool) (error : Option String)

inductive Answer
  | wants (transition : Option Transition)
  | refuses (fault : CommandFault)
  | accepts (yes : Bool)
  | nothing
  deriving DecidableEq, Repr

def Answer.wanted? : Answer → Option Transition
  | wants transition => transition
  | _ => none

def step (c : Controller) : Action → Answer × Controller
  | .observe sample =>
    let (transition, c) := c.observe sample
    (.wants transition, c)
  | .poll now =>
    let (transition, c) := c.poll now
    (.wants transition, c)
  | .command command now =>
    match c.apply command now with
    | (.ok transition, c) => (.wants transition, c)
    | (.error fault, c) => (.refuses fault, c)
  | .complete transition =>
    let (accepted, c) := c.complete transition
    (.accepts accepted, c)
  | .fail transition error now => (.nothing, c.fail transition error now)
  | .setCaptureDegraded camera degraded error =>
    (.nothing, c.setCaptureDegraded camera degraded error)

def run (c : Controller) : List Action → List Answer × Controller
  | [] => ([], c)
  | action :: actions =>
    let (answer, c) := c.step action
    let (answers, c) := c.run actions
    (answer :: answers, c)

def after (c : Controller) (actions : List Action) : Controller := (c.run actions).2

@[simp] theorem after_nil (c : Controller) : c.after [] = c := rfl

@[simp] theorem after_cons (c : Controller) (action : Action) (actions : List Action) :
    c.after (action :: actions) = (c.step action).2.after actions := rfl

theorem after_append (c : Controller) (first second : List Action) :
    c.after (first ++ second) = (c.after first).after second := by
  induction first generalizing c with
  | nil => rfl
  | cons action first ih => simp [ih]

end DayNight.Controller
