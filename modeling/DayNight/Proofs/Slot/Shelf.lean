import DayNight.Bytes.Lemmas
import DayNight.Slot.Shelf
import Mathlib

namespace DayNight

namespace Slot

variable {kind : UInt16} {capacity : UInt64}

@[simp] theorem size_empty : (empty kind capacity).record.size = capacity.toNat :=
  Array.size_replicate

-- What the slot says fits a machine word, and is there.
theorem attach_eq_ok {s : Slot} {handle : Handle} : s.attach kind = .ok handle ↔
    s.magic = magicNumber ∧ s.version = currentVersion ∧ s.kind = kind ∧
      64 + s.capacity.toNat < 2 ^ 64 ∧ 64 + s.capacity.toNat ≤ s.fileLength ∧
      handle = ⟨s.capacity, s.sequence⟩ := by
  constructor
  case mp =>
    intro h
    simp only [attach] at h
    repeat' split at h
    case isFalse hi hk _ length hw hl =>
      obtain ⟨hm, hv⟩ := not_or.mp hi
      have hw := Word.add_eq_ok.mp hw
      have hlt : length.toNat < 2 ^ 64 := length.toNat_lt
      rw [hw] at hl hlt
      cases h
      exact ⟨not_not.mp hm, not_not.mp hv, not_not.mp hk, hlt, Nat.not_lt.mp hl, rfl⟩
    all_goals cases h
  case mpr =>
    rintro ⟨hm, hv, hk, hlt, hl, rfl⟩
    have ⟨hw, hn⟩ := Word.add_of_lt (a := 64) hlt
    simp only [attach, hm, hv, hk, hw, hn, ne_eq, not_true_eq_false, or_self, if_false]
    exact if_neg (Nat.not_lt.mpr hl)

-- Whoever attaches to a slot goes on from the number that it finds.
theorem attach_ok {s : Slot} (hm : s.magic = magicNumber) (hv : s.version = currentVersion)
    (hk : s.kind = kind) (hd : s.capacity = capacity) (hc : 64 + capacity.toNat < 2 ^ 64)
    (hr : capacity.toNat ≤ s.record.size) : s.attach kind = .ok ⟨capacity, s.sequence⟩ := by
  subst hd
  exact attach_eq_ok.mpr ⟨hm, hv, hk, hc, Nat.add_le_add_left hr _, rfl⟩

end Slot

namespace Shelf

variable {shelf shelf' : Shelf} {path name other : String} {file : SlotFile} {kind : UInt16}
         {capacity : UInt64} {s : Slot}

@[simp] theorem get?_put_self : (shelf.put name file).get? name = some file := by
  simp [put, get?]

theorem get?_put_of_ne (h : other ≠ name) :
    (shelf.put name file).get? other = shelf.get? other := by
  have hb : (other == name) = false := beq_eq_false_iff_ne.mpr h
  obtain ⟨files⟩ := shelf
  have hf : (files.filter fun entry => entry.1 ≠ name).lookup other = files.lookup other := by
    induction files
    case nil => rfl
    case cons entry files ih =>
      obtain ⟨key, found⟩ := entry
      by_cases hk : key = name
      case pos => simpa [List.lookup_cons, hk, hb] using ih
      case neg =>
        rw [List.filter_cons_of_pos (by simpa using hk), List.lookup_cons, List.lookup_cons, ih]
  simpa [put, get?, List.lookup_cons, hb] using hf

theorem create_ok (h : shelf.create path kind capacity = (.ok (name, s), shelf')) :
    s = .empty kind capacity ∧ shelf' = shelf.put name (.ofSlot s) ∧
    64 + capacity.toNat < 2 ^ 64 := by
  simp only [create] at h
  repeat' split at h
  case isFalse length hw _ =>
    cases h
    exact ⟨rfl, rfl, Word.add_eq_ok.mp hw ▸ length.toNat_lt⟩
  all_goals cases h

theorem locate_slot (shelf : Shelf) (purpose : Purpose) :
    shelf.locate purpose "slot" = .file "slot" := by
  cbv

theorem find_put_slot (file : SlotFile) :
    (empty.put "slot" file).find "slot" = .ok ("slot", file) := by
  simp only [find, locate_slot, get?_put_self]

theorem create_slot (h : 64 + capacity.toNat < 0x8000000000000000) :
    empty.create "slot" kind capacity =
      (.ok ("slot", .empty kind capacity), empty.put "slot" (.ofSlot (.empty kind capacity))) := by
  have ⟨hw, hn⟩ := Word.add_of_lt (a := 64) (Nat.lt_trans h (by decide))
  simp only [create, locate_slot, hw, hn]
  exact if_neg (Nat.not_le.mpr h)

end Shelf

end DayNight
