import DayNight.Channel.Use

namespace DayNight

structure Sharer (α : Type) where
  mounted : Mounted α
  -- Whether nobody else has published since it attached.
  abreast : Bool

def Sharer.overtaken {α : Type} (sharer : Sharer α) : Sharer α := { sharer with abreast := false }

-- Users of one slot file, each with a channel of its own. They write one after the other; whoever
-- wants to write after somebody else attaches anew.
structure Sharing (α : Type) where
  shelf : Shelf
  file : Option String
  sharers : List (Sharer α)
  -- What has been published, the newest first.
  published : List (Published α)

namespace Sharing

open Channel (Operation Answer)
open Mounted (Site)

variable {α : Type}

-- The file has just been made.
def new (creator : Mounted α) (shelf : Shelf) : Sharing α :=
  ⟨shelf, creator.file, [⟨creator, true⟩], []⟩

inductive Action (α : Type)
  | use (i : Nat) (operation : Operation α)
  | attach (path shown : String)

variable [Record α]

-- Only a user who is abreast may publish; what is refused does not count.
def use (s : Sharing α) (i : Nat) (sharer : Sharer α) (operation : Operation α) :
    Option (Sharing α) :=
  let (answer, site) := Site.step ⟨sharer.mounted, s.shelf⟩ operation
  match operation, answer with
  | .publish value, .published (.ok sequence) =>
    if sharer.abreast then
      some { s with
        shelf := site.shelf
        sharers := (s.sharers.map Sharer.overtaken).set i ⟨site.mounted, true⟩
        published := ⟨sequence, value⟩ :: s.published }
    else none
  | _, _ =>
    some { s with
      shelf := site.shelf
      sharers := s.sharers.set i { sharer with mounted := site.mounted } }

-- The state after an action; nothing if it is not allowed, or if it has to do with another file.
def step (s : Sharing α) : Action α → Option (Sharing α)
  | .use i operation => (s.sharers[i]?).bind fun sharer => s.use i sharer operation
  | .attach path shown =>
    match Mounted.attach s.shelf path shown with
    | .error _ => some s
    | .ok mounted =>
      if mounted.file = s.file then some { s with sharers := s.sharers ++ [⟨mounted, true⟩] }
      else none

def run (s : Sharing α) (actions : List (Action α)) : Option (Sharing α) := actions.foldlM step s

end Sharing

end DayNight
