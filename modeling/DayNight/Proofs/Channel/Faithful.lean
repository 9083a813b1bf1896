import DayNight.Proofs.Channel.Register
import DayNight.Proofs.Slot.Shelf
import DayNight.Proofs.Slot.Traffic
import DayNight.Record.Detection

namespace DayNight

open Medium Traffic

theorem Register.holds_nothing {α : Type} [Record α] {capacity : Option UInt64} :
    (Register.law (α := α) capacity).Holds none [] none :=
  ⟨rfl, rfl⟩

theorem Slot.holds_nothing {α : Type} [Record α] [Record.Lawful α] {capacity : UInt64} :
    (Slot.law (α := α) capacity).Holds (.empty (Record.kind α) capacity) [] none :=
  ⟨Nat.le_of_eq size_empty.symm, rfl, rfl, nofun⟩

-- Every channel is faithful as long as it does not run out of numbers. A shared one has to have a
-- length that can be counted, and values that come back from their bytes as they were.
theorem channels_faithful {α : Type} [Record α] [Record.Lawful α] {actions : List (Action α)} :
    (∀ {capacity : Option UInt64} {t : Traffic (Register.medium capacity)},
      (quiet none).run actions = some t → t.accepted.length < 2 ^ 63 → t.Faithful) ∧
    (∀ {capacity : UInt64} {t : Traffic (Slot.medium capacity)},
      64 + capacity.toNat < 2 ^ 64 →
      (quiet (Slot.empty (Record.kind α) capacity)).run actions = some t →
      t.accepted.length < 2 ^ 63 → (∀ p ∈ t.accepted, Slot.Carried p.value) → t.Faithful) where
  left  hr hn := (Register.law _).faithful Register.holds_nothing hr hn fun _ _ => trivial
  right _ hr hn hv := (Slot.law _).faithful Slot.holds_nothing hr hn hv

-- A reader that is overtaken by the second publication hears all of it in the end, and nothing of
-- what it has gathered of the first one.
def overtaken : List (Action Detection) :=
  let stores (n : Nat) : List (Action Detection) := List.replicate n .store
  let loads (n : Nat) : List (Action Detection) := List.replicate n (.load 0)
  [.join, .begin ⟨[], ⟨5⟩, 7⟩] ++ stores 28 ++ [.finish, .ask 0] ++ loads 10
    ++ [.begin ⟨[], ⟨6⟩, 8⟩] ++ stores 15 ++ loads 19 ++ stores 13 ++ [.finish] ++ loads 28
    ++ [.answer 0]

-- In a register there is nothing to gather: the reader hears the second value before it is through.
def swapped : List (Action Detection) :=
  [.join, .begin ⟨[], ⟨5⟩, 7⟩, .store, .finish, .ask 0, .begin ⟨[], ⟨6⟩, 8⟩, .store, .load 0,
    .answer 0]

theorem overtaken_faithful :
    (∃ t : Traffic (Register.medium none),
      (quiet none).run swapped = some t ∧ t.Faithful ∧
      t.listeners.map (fun l => l.heard.map (·.answer)) = [[some ⟨2, ⟨[], ⟨6⟩, 8⟩⟩]]) ∧
    (∃ t : Traffic (Slot.medium 24),
      (quiet (Slot.empty (Record.kind Detection) 24)).run overtaken = some t ∧ t.Faithful ∧
      t.listeners.map (fun l => l.heard.map (·.answer)) = [[some ⟨2, ⟨[], ⟨6⟩, 8⟩⟩]]) := by
  constructor
  case left =>
    have hr : ((quiet none).run swapped).map (fun t : Traffic (Register.medium none) =>
        (t.accepted.length, t.listeners.map fun l => l.heard.map (·.answer))) =
        some (2, [[some ⟨2, ⟨[], ⟨6⟩, 8⟩⟩]]) := by
      rfl
    have ⟨t, ht, h⟩ := Option.map_eq_some_iff.mp hr
    have ⟨ha, hl⟩ := Prod.mk.inj h
    exact ⟨t, ht, channels_faithful.1 ht (by rw [ha]; decide), hl⟩
  case right =>
    have hr : ((quiet (Slot.empty (Record.kind Detection) 24)).run overtaken).map
        (fun t : Traffic (Slot.medium 24) =>
          (t.accepted, t.listeners.map fun l => l.heard.map (·.answer))) =
        some ([⟨2, ⟨[], ⟨6⟩, 8⟩⟩, ⟨1, ⟨[], ⟨5⟩, 7⟩⟩], [[some ⟨2, ⟨[], ⟨6⟩, 8⟩⟩]]) := by
      decide +kernel
    have ⟨t, ht, h⟩ := Option.map_eq_some_iff.mp hr
    have ⟨ha, hl⟩ := Prod.mk.inj h
    refine ⟨t, ht, channels_faithful.2 (by decide) ht (by rw [ha]; decide) ?_, hl⟩
    rw [ha]
    simp only [List.forall_mem_cons]
    exact ⟨rfl, rfl, by simp⟩

end DayNight
