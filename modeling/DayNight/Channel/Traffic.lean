import DayNight.Channel.Register

namespace DayNight

-- How a channel keeps its value, down to single loads and stores.
structure Medium (α : Type) where
  Memory : Type
  Store  : Type
  Reader : Type
  -- What a reader knows of the channel from the start.
  Port   : Type
  fits   : α → Bool
  -- The stores of a publication under the given number.
  stores : Memory → UInt64 → α → List Store
  apply  : Memory → Store → Memory
  -- For readers who share the writer's handle.
  home   : Port
  -- For readers who attach to the channel now, if others can.
  attach : Memory → Option Port
  -- The number of the last publication as a new writer finds it, if there can be one.
  reopen : Memory → Option UInt64
  start  : Reader
  load   : Port → Memory → Reader → Reader
  -- What a reader answers once it is done.
  result? : Reader → Option (Option (Published α))

-- One swap replaces the value, and one load gets it.
def Register.medium {α : Type} [Record α] (capacity : Option UInt64) : Medium α where
  Memory := Option (Published α)
  Store  := Published α
  Reader := Option (Option (Published α))
  Port   := Unit
  fits value := capacity.all fun capacity => decide (Record.encodedLength value ≤ capacity.toNat)
  stores _ next value := [⟨next, value⟩]
  apply _ publication := some publication
  home := ()
  attach _ := none
  reopen _ := none
  start := none
  load _ stored reader := some (reader.getD stored)
  result? := id

namespace Medium

variable {α : Type} {m : Medium α}

-- A publication under way, with the stores that are still to come.
structure Writing (m : Medium α) where
  publication : Published α
  left : List m.Store

-- An answer to a reader, and the publications that were through when the reader asked.
structure Heard (α : Type) where
  before : List (Published α)
  answer : Option (Published α)

-- A reader, while it reads with what was through when it asked, and what it has heard so far, the
-- latest answer first.
structure Listener (m : Medium α) where
  port : m.Port
  reading : Option (List (Published α) × m.Reader)
  heard : List (Heard α)

-- Threads publish one after the other, each store on its own, and any number of readers make their
-- loads in between, in any order.
structure Traffic (m : Medium α) where
  memory : m.Memory
  -- The number of the last publication; who publishes has it to itself.
  sequence : UInt64
  writing : Option (Writing m)
  -- The publications that are through, the latest first.
  published : List (Published α)
  listeners : List (Listener m)

namespace Traffic

def quiet (memory : m.Memory) : Traffic m := ⟨memory, 0, none, [], []⟩

-- What happens to a channel; readers are told apart by their number.
inductive Action (α : Type)
  | begin (value : α)
  | store
  -- The publication is through.
  | finish
  -- Another writer takes the place of the one so far.
  | reopen
  -- One more reader, on the writer's handle.
  | join
  -- One more reader, on a handle of its own.
  | attach
  | ask (reader : Nat)
  | load (reader : Nat)
  | answer (reader : Nat)

def setListener (t : Traffic m) (i : Nat) (l : Listener m) : Traffic m :=
  { t with listeners := t.listeners.set i l }

def addListener (t : Traffic m) (port : m.Port) : Traffic m :=
  { t with listeners := t.listeners ++ [⟨port, none, []⟩] }

-- The traffic after an action; nothing if it cannot happen now.
def step (t : Traffic m) : Action α → Option (Traffic m)
  | .begin value =>
    -- A value that does not fit is refused before anything is touched.
    if !m.fits value then some t
    else
      match t.writing with
      | some _ => none
      | none =>
        let next := t.sequence + 1
        some { t with writing := some ⟨⟨next, value⟩, m.stores t.memory next value⟩ }
  | .store =>
    match t.writing with
    | some ⟨publication, store :: left⟩ =>
      some { t with memory := m.apply t.memory store, writing := some ⟨publication, left⟩ }
    | _ => none
  | .finish =>
    match t.writing with
    | some ⟨publication, []⟩ =>
      some { t with
        sequence := publication.sequence
        writing := none
        published := publication :: t.published }
    | _ => none
  | .reopen =>
    match t.writing with
    | some _ => none
    | none => (m.reopen t.memory).map fun sequence => { t with sequence := sequence }
  | .join => some (t.addListener m.home)
  | .attach => (m.attach t.memory).map t.addListener
  | .ask i =>
    match t.listeners[i]? with
    | some ⟨port, none, heard⟩ =>
      some (t.setListener i ⟨port, some (t.published, m.start), heard⟩)
    | _ => none
  | .load i =>
    match t.listeners[i]? with
    | some ⟨port, some (before, reader), heard⟩ =>
      some (t.setListener i ⟨port, some (before, m.load port t.memory reader), heard⟩)
    | _ => none
  | .answer i =>
    match t.listeners[i]? with
    | some ⟨port, some (before, reader), heard⟩ =>
      (m.result? reader).map fun answer => t.setListener i ⟨port, none, ⟨before, answer⟩ :: heard⟩
    | _ => none

-- The traffic after some actions in a row.
def run (t : Traffic m) (actions : List (Action α)) : Option (Traffic m) := actions.foldlM step t

-- All publications that were not refused, the latest first.
def accepted (t : Traffic m) : List (Published α) :=
  (t.writing.map (·.publication)).toList ++ t.published

end Traffic

end Medium

end DayNight
