import DayNight.Proofs.Bytes.Fields
import DayNight.Slot.Reading
import DayNight.Slot.Writing

namespace DayNight.Slot

variable {s : Slot} {store : Store}

@[simp] theorem apply_capacity : (s.apply store).capacity = s.capacity := by
  cases store <;> rfl

@[simp] theorem apply_record_size : (s.apply store).record.size = s.record.size := by
  cases store <;> simp [apply]

theorem apply_generation_of_ne (h : ∀ g, store ≠ .generation g) :
    (s.apply store).generation = s.generation := by
  cases store
  case generation g => exact absurd rfl (h g)
  all_goals rfl

@[simp] theorem applyAll_nil : s.applyAll [] = s := rfl

@[simp] theorem applyAll_cons {stores : List Store} :
    s.applyAll (store :: stores) = (s.apply store).applyAll stores := rfl

@[simp] theorem applyAll_append {stores stores' : List Store} :
    s.applyAll (stores ++ stores') = (s.applyAll stores).applyAll stores' := by
  simp [applyAll]

theorem applyAll_recordStores {offset : Nat} {bytes : Bytes}
    (h : offset + bytes.length ≤ s.record.size) : s.applyAll (recordStores offset bytes) =
      { s with record := (Bytes.overwrite s.record.toList offset bytes).toArray } := by
  induction bytes generalizing s offset
  case nil => simp [recordStores]
  case cons b bytes ih =>
    have hlt : offset < s.record.toList.length := by
      simp only [List.length_cons, Array.length_toList] at h ⊢
      omega
    have hle : offset + 1 + bytes.length ≤ (s.apply (.recordByte offset b)).record.size := by
      simp only [List.length_cons, apply_record_size] at h ⊢
      omega
    rw [recordStores, applyAll_cons, ih hle, Bytes.overwrite_cons b hlt]
    simp [apply]

-- No store of a record touches the generation.
theorem ne_generation_of_mem_recordStores {offset : Nat} {bytes : Bytes}
    (h : store ∈ recordStores offset bytes) (g : UInt64) : store ≠ .generation g := by
  induction bytes generalizing offset
  case nil => cases h
  case cons b bytes ih =>
    cases h
    case head   => exact Store.noConfusion
    case tail h => exact ih h

-- The first bytes of the record, as a reader finds them.
def found (s : Slot) (n : Nat) : Bytes := (List.range n).map fun i => s.record[i]?.getD 0

@[simp] theorem length_found {n : Nat} : (s.found n).length = n := by
  simp [found]

theorem found_succ {n : Nat} : s.found (n + 1) = s.found n ++ [s.record[n]?.getD 0] := by
  simp [found, List.range_succ]

theorem found_eq_take {n : Nat} (h : n ≤ s.record.size) : s.found n = s.record.toList.take n := by
  induction n
  case zero => rfl
  case succ n ih =>
    rw [found_succ, ih (Nat.le_of_succ_le h), List.take_add_one, Array.getElem?_toList,
      Array.getElem?_eq_getElem h]
    rfl

-- A publication in full. The generation goes up by two.
theorem applyAll_publicationStores {sequence : UInt64} {bytes : Bytes}
    (h : bytes.length ≤ s.record.size) :
    s.applyAll (publicationStores s.generation sequence bytes) = { s with
      generation := busy s.generation + 1
      sequence := sequence
      recordLength := .ofNat bytes.length
      record := (Bytes.overwrite s.record.toList 0 bytes).toArray } := by
  rw [publicationStores, applyAll_append, applyAll_append,
    applyAll_recordStores (by simpa [apply] using h)]
  rfl

theorem found_publication {sequence : UInt64} {bytes : Bytes} (h : bytes.length ≤ s.record.size) :
    (s.applyAll (publicationStores s.generation sequence bytes)).found bytes.length = bytes := by
  have hlength : bytes.length ≤ s.record.toList.length := by simpa using h
  rw [applyAll_publicationStores h, Bytes.overwrite_zero hlength, found_eq_take] <;> simp

theorem busy_toNat {g : UInt64} {n : Nat} (h : g.toNat = 2 * n) : (busy g).toNat = 2 * n + 1 := by
  rw [busy, UInt64.toNat_or, h]
  exact (Nat.two_pow_add_eq_or_of_lt (by decide : 1 < 2 ^ 1) n).symm

end DayNight.Slot
