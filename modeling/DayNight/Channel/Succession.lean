import DayNight.Channel.Traffic

namespace DayNight.Medium

variable {α : Type} {m : Medium α}

namespace Traffic

-- Whether it takes a writer to do this.
def Action.isWriters : Action α → Bool
  | begin _ => true
  | store => true
  | finish => true
  | reopen => true
  | _ => false

-- What a writer leaves behind. With its last store a publication is through.
def orphaned (t : Traffic m) : Traffic m :=
  match t.writing with
  | some ⟨publication, []⟩ =>
    { t with writing := none, published := publication :: t.published }
  | _ => { t with writing := none }

end Traffic

-- The writers of a channel, one after the other. A writer may die at any time, also between two
-- stores of a publication; what it has stored stays.
structure Succession (m : Medium α) where
  traffic : Traffic m
  -- Whether there is a writer.
  alive : Bool

namespace Succession

def quiet (memory : m.Memory) : Succession m := ⟨.quiet memory, true⟩

inductive Action (α : Type)
  | acts (action : Traffic.Action α)
  | dies
  -- Another writer attaches.
  | succeeds

def Action.begins : Action α → Bool
  | acts (.begin _) => true
  | _ => false

-- The succession after an action; nothing if it cannot happen now.
def step (u : Succession m) : Action α → Option (Succession m)
  | .acts action =>
    if u.alive || !action.isWriters then
      (u.traffic.step action).map fun t => { u with traffic := t }
    else none
  | .dies => if u.alive then some ⟨u.traffic.orphaned, false⟩ else none
  | .succeeds =>
    if u.alive then none
    else (m.reopen u.traffic.memory).map fun sequence =>
      ⟨{ u.traffic with sequence := sequence }, true⟩

def run (u : Succession m) (actions : List (Action α)) : Option (Succession m) :=
  actions.foldlM step u

end Succession

end DayNight.Medium
