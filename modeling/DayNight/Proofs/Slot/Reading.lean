import DayNight.Proofs.Slot.Traffic

namespace DayNight.Slot

variable {s : Slot} {capacity : UInt64}

namespace Reader

@[simp] theorem run_finished (fuel : Nat) (result : Option Copy) :
    run capacity s fuel (.finished result) = .finished result := by
  cases fuel <;> rfl

theorem run_succ (fuel : Nat) (reader : Reader) :
    run capacity s (fuel + 1) reader = run capacity s fuel (reader.step capacity s) := by
  cases reader
  case finished result => rw [run_finished, step, run_finished]
  all_goals rfl

-- Under an odd generation each try fails, until there have been enough of them.
theorem run_of_odd (h : s.generation % 2 = 1) {fuel attempt : Nat}
    (hf : attempts ≤ fuel + attempt) :
    run capacity s (fuel + 1) (.starting attempt) = .finished none := by
  have h0 : s.generation ≠ 0 := by
    intro h0
    rw [h0] at h
    cases h
  induction fuel generalizing attempt
  case zero => rw [run_succ, step, if_pos (by omega), run_finished]
  case succ fuel ih =>
    rw [run_succ, step, if_neg h0, if_pos h]
    split
    case isTrue  => exact run_finished ..
    case isFalse => exact ih (by omega)

-- So it does if the record is too long: a try ends with the load of its length.
theorem run_of_oversized (h0 : s.generation ≠ 0) (h1 : s.generation % 2 ≠ 1)
    (hc : capacity < s.recordLength) {tries rest attempt : Nat}
    (hf : attempts ≤ tries + attempt) :
    run capacity s (3 * tries + rest + 1) (.starting attempt) = .finished none := by
  induction tries generalizing attempt
  case zero => rw [run_succ, step, if_pos (by omega), run_finished]
  case succ tries ih =>
    have hn : 3 * (tries + 1) + rest + 1 = 3 * tries + rest + 1 + 1 + 1 + 1 := by omega
    rw [hn, run_succ, step, if_neg h0, if_neg h1]
    split
    case isTrue  => exact run_finished ..
    case isFalse => rw [run_succ, step, run_succ, step, if_pos hc, ih (by omega)]

-- The bytes that are left to copy are copied one by one.
theorem run_of_copying {before sequence : UInt64} (hg : s.generation = before)
    {fuel attempt left : Nat} {copied : Bytes} (hf : left ≤ fuel)
    (hc : copied.reverse = s.found copied.length) :
    run capacity s (fuel + 1) (.copying attempt before sequence left copied) =
      .finished (some ⟨sequence, s.found (copied.length + left)⟩) := by
  induction left generalizing fuel copied
  case zero => rw [run_succ, step, if_pos hg, hc, run_finished, Nat.add_zero]
  case succ left ih =>
    obtain ⟨fuel, rfl⟩ := Nat.exists_eq_add_of_le' (Nat.zero_lt_of_lt hf)
    have hc : (s.record[copied.length]?.getD 0 :: copied).reverse =
        s.found (s.record[copied.length]?.getD 0 :: copied).length := by
      rw [List.reverse_cons, hc, List.length_cons, found_succ]
    rw [run_succ, step, ih (Nat.le_of_succ_le_succ hf) hc, List.length_cons,
      Nat.add_right_comm, Nat.add_assoc]

end Reader

variable {handle : Handle}

theorem run_of_empty (h : s.generation = 0) :
    Reader.run capacity s s.readSteps (.starting 0) = .finished none := by
  have ha : ¬ attempts ≤ 0 := by decide
  rw [readSteps, Nat.add_right_comm, Reader.run_succ, Reader.step, if_neg ha, if_pos h,
    Reader.run_finished]

theorem run_of_odd (h : s.generation % 2 = 1) :
    Reader.run capacity s s.readSteps (.starting 0) = .finished none := by
  rw [readSteps, Nat.add_right_comm, Reader.run_of_odd h (by omega)]

theorem run_of_oversized (h0 : s.generation ≠ 0) (h1 : s.generation % 2 ≠ 1)
    (hc : capacity < s.recordLength) :
    Reader.run capacity s s.readSteps (.starting 0) = .finished none := by
  obtain ⟨rest, hr⟩ : ∃ rest, s.readSteps = 3 * attempts + rest + 1 :=
    ⟨2 + min s.recordLength.toNat s.record.size, by rw [readSteps]; omega⟩
  rw [hr, Reader.run_of_oversized h0 h1 hc (Nat.le_add_right ..)]

theorem run_of_even (h0 : s.generation ≠ 0) (h1 : s.generation % 2 ≠ 1)
    (hc : s.recordLength ≤ capacity) (hr : s.recordLength.toNat ≤ s.record.size) :
    Reader.run capacity s s.readSteps (.starting 0) =
      .finished (some ⟨s.sequence, s.found s.recordLength.toNat⟩) := by
  obtain ⟨fuel, hf⟩ : ∃ fuel, s.readSteps = fuel + 1 + 1 + 1 + 1 ∧ s.recordLength.toNat ≤ fuel :=
    ⟨s.readSteps - 4, by simp only [readSteps, attempts]; omega, by
      simp only [readSteps, attempts]; omega⟩
  have ha : ¬ attempts ≤ 0 := by decide
  rw [hf.1, Reader.run_succ, Reader.step, if_neg ha, if_neg h0, if_neg h1,
    Reader.run_succ, Reader.step, Reader.run_succ, Reader.step,
    if_neg (UInt64.not_lt.mpr hc), Reader.run_of_copying rfl hf.2 rfl, List.length_nil,
    Nat.zero_add]

theorem read_of_run {result : Option Copy}
    (h : Reader.run handle.capacity s s.readSteps (.starting 0) = .finished result) :
    s.read handle = result := by
  rw [read, h]

theorem read_of_empty (h : s.generation = 0) : s.read handle = none :=
  read_of_run (run_of_empty h)

theorem read_of_odd (h : s.generation % 2 = 1) : s.read handle = none :=
  read_of_run (run_of_odd h)

theorem read_of_even (h0 : s.generation ≠ 0) (h1 : s.generation % 2 ≠ 1)
    (hc : s.recordLength ≤ handle.capacity) (hr : s.recordLength.toNat ≤ s.record.size) :
    s.read handle = some ⟨s.sequence, s.found s.recordLength.toNat⟩ :=
  read_of_run (run_of_even h0 h1 hc hr)

section

variable {α : Type} [Record α] {p : Published α} {ps : List (Published α)} {sequence : UInt64}

-- A record that readers take lies in the slot.
structure Keeps (s : Slot) (capacity : UInt64) (p : Published α) : Prop where
  sequence : s.sequence = p.sequence
  length   : s.recordLength.toNat = (Record.encode p.value).length
  record   : s.found (Record.encode p.value).length = Record.encode p.value
  fits     : (Record.encode p.value).length ≤ capacity.toNat

theorem Shows.keeps (h : s.Shows p) (hf : (Record.encode p.value).length ≤ capacity.toNat) :
    s.Keeps capacity p :=
  ⟨h.sequence, h.length, h.record, hf⟩

theorem Keeps.latest (h : s.Keeps capacity p) (h0 : s.generation ≠ 0) (h1 : s.generation % 2 ≠ 1)
    (hr : capacity.toNat ≤ s.record.size) :
    (s.latest ⟨capacity, sequence⟩ : Option (Published α)) =
      Copy.decode? ⟨p.sequence, Record.encode p.value⟩ := by
  have hl : s.recordLength.toNat ≤ capacity.toNat := h.length ▸ h.fits
  rw [Slot.latest, read_of_even h0 h1 (UInt64.le_iff_toNat_le.mpr hl) (Nat.le_trans hl hr),
    h.length, h.record, h.sequence]
  rfl

theorem decode_of_carried (h : Carried p.value) :
    Copy.decode? ⟨p.sequence, Record.encode p.value⟩ = some p := by
  rw [Copy.decode?, h]
  rfl

-- The newest publication is read back.
theorem Holds.latest (h : Holds capacity s ps none) (hn : ps.length < 2 ^ 63)
    (hf : ∀ p ∈ ps.head?, (Record.encode p.value).length ≤ capacity.toNat) :
    s.latest ⟨capacity, sequence⟩ = ps.head? := by
  have ⟨hroom, hquiet⟩ := h
  have hg := hquiet.generation
  cases ps
  case nil =>
    have h0 : s.generation = 0 := UInt64.toNat_inj.mp hg
    rw [Slot.latest, read_of_empty h0]
    rfl
  case cons p ps =>
    have hs := hquiet.shows p rfl
    have h0 : s.generation ≠ 0 := fun h0 => by simp [h0] at hg
    have h1 : s.generation % 2 ≠ 1 := fun h1 => by
      have : s.generation.toNat % 2 = 1 := congrArg UInt64.toNat h1
      omega
    exact ((hs.keeps (hf p rfl)).latest h0 h1 hroom).trans (decode_of_carried hs.carried)

theorem Holds.stores {left : List Store} (h : Holds capacity s ps (some ⟨p, left⟩)) :
    Holds capacity (s.applyAll left) ps (some ⟨p, []⟩) := by
  induction left generalizing s
  case nil => exact h
  case cons store left ih => exact ih h.store

-- A publication that is not disturbed.
theorem Holds.publication [Record.Lawful α] (h : Holds capacity s ps none) {value : α}
    (hn : ps.length + 1 < 2 ^ 63) (hf : Record.encodedLength value ≤ capacity.toNat)
    (hc : Carried value) (hs : sequence.toNat = ps.length + 1) : Holds capacity
      (s.applyAll (publicationStores s.generation sequence (Record.encode value)))
      (⟨sequence, value⟩ :: ps) none :=
  (h.begin hn hf hc hs).stores.finish

end

end DayNight.Slot
