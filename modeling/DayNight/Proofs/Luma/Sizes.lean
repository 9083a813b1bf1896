import DayNight.Proofs.Luma.Pixels

namespace DayNight.Luma

variable {jpeg : JpegDecoder} {format : PixelFormat} {k : Nat} {data : Bytes}
         {width height : UInt32}

-- The answer if numbers of bytes were not bounded; `k` is the number of bytes for each pixel.
def sizedExactly (format : PixelFormat) (k : Nat) (data : Bytes) (width height : UInt32) :
    Except LumaError Float :=
  let pixels := width.toNat * height.toNat
  if pixels = 0 then .error .empty
  else if data.length < k * pixels then
    .error (.shortBuffer format data.length (k * pixels) width height)
  else .ok (brightness format data pixels / Float.ofNat pixels)

theorem map_require {expected : UInt64} {n : Nat} {f : Bytes → Float} {value : Float}
    (hn : expected.toNat = n) (h : n ≤ data.length → f (data.take n) = value) :
    (require data width height format (.ok expected)).map f =
      if data.length < n then .error (.shortBuffer format data.length n width height)
      else .ok value := by
  subst hn
  rw [require]
  split
  case isTrue      => rfl
  case isFalse hle => exact congrArg Except.ok (h (Nat.not_lt.mp hle))

-- As long as the number of bytes for all pixels fits a machine word.
theorem ofData_eq_sizedExactly (hk : format.bytesPerPixel? = some k)
    (hfits : k * (width.toNat * height.toNat) < UInt64.size) (data : Bytes) :
    ofData jpeg data width height format = sizedExactly format k data width height := by
  obtain ⟨count, hc, hcount⟩ := exists_pixelCount width height
  have hzero : count = 0 ↔ width.toNat * height.toNat = 0 := by
    rw [← hcount, ← UInt64.toNat_inj]
    rfl
  unfold ofData sizedExactly
  rw [← hcount] at hfits hzero ⊢
  simp only [hc, hzero]
  refine if_congr Iff.rfl rfl ?_
  cases format
  case mjpeg => cases hk
  all_goals obtain rfl := Option.some.inj hk
  case gray8 | nv12 =>
    rw [Nat.one_mul]
    exact map_require rfl mean_take
  case yuyv4 =>
    have ⟨hw, hn⟩ := Word.multiply_of_lt (a := count) (b := 2) (by rwa [Nat.mul_comm] at hfits)
    rw [hw]
    refine map_require (hn.trans (Nat.mul_comm ..)) fun h => ?_
    rw [← bytesAt_two h, total_eq_sum]
    rfl
  case rgb24 | bgr24 =>
    have ⟨hw, hn⟩ := Word.multiply_of_lt (a := count) (b := 3) (by rwa [Nat.mul_comm] at hfits)
    rw [hw]
    refine map_require (hn.trans (Nat.mul_comm ..)) fun h => ?_
    rw [weightedMean_take _ h, Nat.mul_div_cancel_left _ (by decide)]
    rfl

theorem ofData_of_overflow (hk : format.bytesPerPixel? = some k)
    (hlarge : UInt64.size ≤ k * (width.toNat * height.toNat)) (data : Bytes) :
    ofData jpeg data width height format = .error (.overflow .multiply) := by
  obtain ⟨count, hc, hcount⟩ := exists_pixelCount width height
  have hlt := count.toNat_lt_size
  have hzero : count ≠ 0 := by
    rintro rfl
    rw [← hcount] at hlarge
    exact absurd hlarge (by simp)
  have hover (b : UInt64) (hb : b.toNat = k) : Word.multiply count b = .error .multiply :=
    Word.multiply_of_le (by rwa [hb, Nat.mul_comm, hcount])
  rw [← hcount] at hlarge
  unfold ofData
  simp only [hc, if_neg hzero]
  cases format
  case mjpeg => cases hk
  all_goals obtain rfl := Option.some.inj hk
  case gray8 | nv12 => omega
  case yuyv4         => rw [hover 2 rfl]; rfl
  case rgb24 | bgr24 => rw [hover 3 rfl]; rfl

theorem sizedExactly_ne_overflow (format : PixelFormat) (k : Nat) (data : Bytes)
    (width height : UInt32) (o : Overflow) :
    sizedExactly format k data width height ≠ .error (.overflow o) := by
  dsimp only [sizedExactly]
  repeat' split
  all_goals exact nofun

theorem lt_length_of_read {pixels : Nat} (h : k * pixels ≤ data.length) {i offset : Nat}
    (hi : i < pixels) (ho : offset < k) : k * i + offset < data.length := calc
  _ < k * i + k   := Nat.add_lt_add_left ho _
  _ = k * (i + 1) := rfl
  _ ≤ k * pixels  := Nat.mul_le_mul_left k hi
  _ ≤ data.length := h

-- Images without pixels and data too short for all pixels are told apart, and of other images the
-- mean over all pixels is taken, exactly if the number of bytes for all pixels fits a machine word.
-- Otherwise the program breaks off, however long the data is. The number of pixels always fits, and
-- nothing is read beyond the end of the data.
theorem size_checks_exact_iff {format : PixelFormat} {k : Nat}
    (hk : format.bytesPerPixel? = some k) (jpeg : JpegDecoder) (data : Bytes)
    (width height : UInt32) :
    let pixels := width.toNat * height.toNat
    let answer := ofData jpeg data width height format
    (∃ count, pixelCount width height = .ok count ∧ count.toNat = pixels) ∧
    answer = (if UInt64.size ≤ k * pixels then .error (.overflow .multiply)
      else sizedExactly format k data width height) ∧
    (k * pixels ≤ data.length →
      ∀ i < pixels, ∀ offset < k, k * i + offset < data.length) ∧
    (answer = sizedExactly format k data width height ↔ k * pixels < UInt64.size) := by
  intro pixels answer
  have ha : answer = if UInt64.size ≤ k * pixels then .error (.overflow .multiply)
      else sizedExactly format k data width height := by
    split
    case isTrue hlarge => exact ofData_of_overflow hk hlarge data
    case isFalse hfits => exact ofData_eq_sizedExactly hk (Nat.not_le.mp hfits) data
  refine ⟨exists_pixelCount width height, ha, fun h i hi offset ho => lt_length_of_read h hi ho, ?_⟩
  rw [ha, ← Nat.not_le]
  split
  case isTrue hlarge =>
    exact iff_of_false (Ne.symm (sizedExactly_ne_overflow _ _ _ _ _ _)) (not_not.mpr hlarge)
  case isFalse hfits => exact iff_of_true rfl hfits

-- The largest image there can be has fewer bytes than a machine word can count, if each pixel has
-- one byte.
theorem size_checks_exact_of_largest :
    let jpeg : JpegDecoder := .blind
    PixelFormat.nv12.bytesPerPixel? = some 1 ∧
    ofData jpeg [7] 4294967295 4294967295 .nv12 =
      .error (.shortBuffer .nv12 1 18446744065119617025 4294967295 4294967295) := by
  intro jpeg
  have hk : PixelFormat.nv12.bytesPerPixel? = some 1 := rfl
  have ⟨_, ha, _, _⟩ := size_checks_exact_iff hk jpeg [7] 4294967295 4294967295
  exact ⟨hk, ha⟩

-- With two bytes for each pixel, an image of more than `2 ^ 63` pixels is not said to be short.
theorem not_every_short_buffer_is_reported :
    let jpeg : JpegDecoder := .blind
    sizedExactly .yuyv4 2 [10, 200, 30, 200] 2761311370 3340214413 =
      .error (.shortBuffer .yuyv4 4 18446744073709551620 2761311370 3340214413) ∧
    ofData jpeg [10, 200, 30, 200] 2761311370 3340214413 .yuyv4 =
      .error (.overflow .multiply) :=
  ⟨rfl, rfl⟩

end DayNight.Luma
