import DayNight.Bytes.Lemmas

namespace DayNight.Bytes

variable {rest new : Bytes} {offset width width' n : Nat}

@[simp] theorem drop_ofNat_append (h : width ≤ offset) :
    (ofNat width n ++ rest).drop offset = rest.drop (offset - width) := by
  rw [List.drop_append, List.drop_eq_nil_of_le (by simpa using h), List.nil_append, length_ofNat]

@[simp] theorem slice_zero : rest.slice 0 width = rest.take width := rfl

@[simp] theorem slice_ofNat_append (h : width' ≤ offset) :
    (ofNat width' n ++ rest).slice offset width = rest.slice (offset - width') width := by
  simp [slice, h]

@[simp] theorem slice_cons (b : UInt8) (h : 0 < offset) :
    slice (b :: rest) offset width = rest.slice (offset - 1) width := by
  cases offset
  case zero   => simp at h
  case succ n => rfl

@[simp] theorem number_ofNat_append (h : width' ≤ offset) :
    (ofNat width' n ++ rest).number offset width = rest.number (offset - width') width := by
  simp [number, h]

@[simp] theorem number_cons (b : UInt8) (h : 0 < offset) :
    number (b :: rest) offset width = rest.number (offset - 1) width := by
  simp [number, h]

@[simp] theorem number_ofNat : (ofNat width n ++ rest).number 0 width = n % 256 ^ width := by
  simp [number, toNat_ofNat]

@[simp] theorem number_byte (b : UInt8) : number (b :: rest) 0 1 = b.toNat := by
  simp [number, toNat]

theorem overwrite_zero (h : new.length ≤ rest.length) :
    rest.overwrite 0 new = new ++ rest.drop new.length := by
  simp [overwrite, List.take_of_length_le h]

@[simp] theorem overwrite_nil : rest.overwrite offset [] = rest := by
  simp [overwrite]

-- Bytes are replaced one after the other.
theorem overwrite_cons (b : UInt8) (h : offset < rest.length) :
    rest.overwrite offset (b :: new) = overwrite (rest.set offset b) (offset + 1) new := by
  have htake : (rest.set offset b).take (offset + 1) = rest.take offset ++ [b] := by
    rw [List.take_add_one, List.take_set_of_le (Nat.le_refl _)]
    simp [h]
  have hdrop : (rest.set offset b).drop (offset + 1 + new.length) =
      rest.drop (offset + 1 + new.length) := List.drop_set_of_lt (by omega)
  have hroom : rest.length - offset = rest.length - (offset + 1) + 1 := by omega
  rw [overwrite, overwrite, htake, hdrop, List.length_set, hroom, List.take_succ_cons]
  simp [Nat.add_comm, Nat.add_left_comm]

variable {bs : Bytes}

theorem length_slice (h : offset + width ≤ bs.length) : (bs.slice offset width).length = width := by
  rw [slice, List.length_take, List.length_drop]
  omega

theorem number_lt (bs : Bytes) (offset width : Nat) : bs.number offset width < 256 ^ width := by
  have hl : (bs.slice offset width).length ≤ width := by
    rw [slice, List.length_take]
    exact Nat.min_le_left ..
  exact Nat.lt_of_lt_of_le (toNat_lt _) (Nat.pow_le_pow_right (by decide) hl)

theorem ofNat_number (h : offset + width ≤ bs.length) :
    ofNat width (bs.number offset width) = bs.slice offset width := by
  have hk := ofNat_toNat (bs.slice offset width)
  rwa [length_slice h] at hk

theorem byte_number (h : offset < bs.length) :
    [UInt8.ofNat (bs.number offset 1)] = bs.slice offset 1 := by
  have hn : bs.number offset 1 < 256 := bs.number_lt offset 1
  rw [← ofNat_number h, ofNat, ofNat, Nat.mod_eq_of_lt hn]

-- Fields that follow each other make one field.
theorem slice_append (bs : Bytes) (offset width more : Nat) :
    bs.slice offset width ++ bs.slice (offset + width) more = bs.slice offset (width + more) := by
  rw [slice, slice, slice, List.take_add, List.drop_drop]

theorem number_drop (bs : Bytes) (n offset width : Nat) :
    number (bs.drop n) offset width = bs.number (n + offset) width := by
  rw [number, number, slice, slice, List.drop_drop]

-- A field is read off the bytes up to its end.
theorem slice_take (h : offset + width ≤ n) :
    slice (bs.take n) offset width = bs.slice offset width := by
  rw [slice, slice, List.drop_take, List.take_take, Nat.min_eq_left (by omega)]

theorem number_take (h : offset + width ≤ n) :
    number (bs.take n) offset width = bs.number offset width := by
  rw [number, number, slice_take h]

-- A record in which some bytes are replaced.
theorem overwrite_take {bs new : Bytes} {offset length : Nat} (h : offset + new.length ≤ length)
    (hl : length ≤ bs.length) : overwrite (bs.take length) offset new =
      bs.slice 0 offset ++ new ++
        bs.slice (offset + new.length) (length - (offset + new.length)) := by
  have hn : new.length ≤ (bs.take length).length - offset := by
    rw [List.length_take]
    omega
  rw [overwrite, List.take_of_length_le hn, List.take_take, Nat.min_eq_left (by omega),
    List.drop_take]
  rfl

end DayNight.Bytes
