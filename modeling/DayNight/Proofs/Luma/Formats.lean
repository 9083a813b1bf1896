import DayNight.Proofs.Luma.Sizes

namespace DayNight

-- The bytes of a pixel that tell its brightness, by their place among the bytes of the pixel.
def PixelFormat.brightOffsets : PixelFormat → List Nat
  | gray8 | nv12 | yuyv4 => [0]
  | rgb24 | bgr24 => [0, 1, 2]
  | mjpeg => []

namespace Luma

variable {jpeg : JpegDecoder} {format : PixelFormat} {k pixels : Nat} {data other : Bytes}
         {width height : UInt32}

-- Exchanges the first and the third byte of each whole pixel.
def exchangeEnds : Bytes → Bytes
  | a :: b :: c :: rest => c :: b :: a :: exchangeEnds rest
  | rest => rest

theorem byteAt_eq {i j : Nat} (h : data[i]? = other[j]?) : byteAt data i = byteAt other j := by
  rw [byteAt, byteAt, List.getD_eq_getElem?_getD, List.getD_eq_getElem?_getD, h]

theorem length_exchangeEnds : ∀ data : Bytes, (exchangeEnds data).length = data.length
  | [] | [_] | [_, _] => rfl
  | _ :: _ :: _ :: rest => congrArg (· + 3) (length_exchangeEnds rest)

theorem getElem?_exchangeEnds : ∀ (data : Bytes) {i : Nat}, 3 * i + 2 < data.length →
    (exchangeEnds data)[3 * i]? = data[3 * i + 2]? ∧
    (exchangeEnds data)[3 * i + 1]? = data[3 * i + 1]? ∧
    (exchangeEnds data)[3 * i + 2]? = data[3 * i]?
  | [], _, h | [_], _, h | [_, _], _, h => by
    simp only [List.length_cons, List.length_nil] at h
    omega
  | _ :: _ :: _ :: _, 0, _ => ⟨rfl, rfl, rfl⟩
  | _ :: _ :: _ :: rest, i + 1, h =>
    getElem?_exchangeEnds rest (by simp only [List.length_cons] at h; omega)

theorem colourAt_exchangeEnds {i : Nat} (hi : 3 * i + 2 < data.length) :
    colourAt .rgb (exchangeEnds data) i = colourAt .bgr data i := by
  have ⟨hfirst, hmiddle, hlast⟩ := getElem?_exchangeEnds data hi
  rw [colourAt, colourAt, byteAt_eq hfirst, byteAt_eq hmiddle, byteAt_eq hlast]

theorem brightness_exchangeEnds (h : 3 * pixels ≤ data.length) :
    brightness .rgb24 (exchangeEnds data) pixels = brightness .bgr24 data pixels := by
  refine List.foldl_ext _ _ _ fun sum i hi => ?_
  have hlt : i < pixels := List.mem_range.mp hi
  rw [colourAt_exchangeEnds (by omega)]

theorem length_everySecond (h : 2 * pixels ≤ data.length) :
    pixels ≤ (everySecond data).length := by
  cases pixels
  case zero => exact Nat.zero_le _
  case succ n =>
    by_contra hlt
    have hnone : (everySecond data)[n]? = none := List.getElem?_eq_none (by omega)
    rw [getElem?_everySecond, List.getElem?_eq_none_iff] at hnone
    omega

theorem brightness_everySecond (data : Bytes) (pixels : Nat) :
    brightness .gray8 (everySecond data) pixels = brightness .yuyv4 data pixels := by
  have h : bytesAt 1 (everySecond data) pixels = bytesAt 2 data pixels :=
    List.map_congr_left fun i _ => by
      rw [Nat.one_mul, byteAt_eq (getElem?_everySecond data i)]
  simp only [brightness, h]

-- The same bytes tell the brightness of the first pixels of both images.
def LookAlike (format : PixelFormat) (k pixels : Nat) (data other : Bytes) : Prop :=
  ∀ i < pixels, ∀ offset ∈ format.brightOffsets, data[k * i + offset]? = other[k * i + offset]?

theorem LookAlike.brightness (hk : format.bytesPerPixel? = some k)
    (h : LookAlike format k pixels data other) :
    brightness format data pixels = brightness format other pixels := by
  have hbyte (i : Nat) (hi : i < pixels) (offset : Nat) (ho : offset ∈ format.brightOffsets) :
      byteAt data (k * i + offset) = byteAt other (k * i + offset) :=
    byteAt_eq (h i hi offset ho)
  cases format
  case mjpeg => cases hk
  all_goals obtain rfl := Option.some.inj hk
  case gray8 | nv12 | yuyv4 =>
    have hb := List.map_congr_left fun i hi => hbyte i (List.mem_range.mp hi) 0 (by decide)
    simp only [Nat.add_zero] at hb
    simp only [Luma.brightness, bytesAt, hb]
  case rgb24 | bgr24 =>
    refine List.foldl_ext _ _ _ fun sum i hi => ?_
    have hb := hbyte i (List.mem_range.mp hi)
    have h0 := hb 0 (by decide)
    rw [Nat.add_zero] at h0
    rw [colourAt, colourAt, h0, hb 1 (by decide), hb 2 (by decide)]

-- Data that is long enough is never refused.
theorem ofData_of_long (hk : format.bytesPerPixel? = some k)
    (hfits : k * (width.toNat * height.toNat) < UInt64.size)
    (hzero : width.toNat * height.toNat ≠ 0)
    (hlong : k * (width.toNat * height.toNat) ≤ data.length) :
    ofData jpeg data width height format =
      .ok (brightness format data (width.toNat * height.toNat) /
        Float.ofNat (width.toNat * height.toNat)) := by
  rw [ofData_eq_sizedExactly hk hfits, sizedExactly, if_neg hzero, if_neg (Nat.not_lt.mpr hlong)]

-- For images with pixels and enough data: with luma bytes first it makes no difference what comes
-- after them, pairs of bytes show what their first bytes show, and the order of the colours makes
-- no difference but for where they stand. What stands elsewhere has no part in the brightness.
theorem formats_agree (jpeg : JpegDecoder) (width height : UInt32) (data : Bytes)
    (hzero : width.toNat * height.toNat ≠ 0)
    (hfits : 3 * (width.toNat * height.toNat) < UInt64.size) :
    let pixels := width.toNat * height.toNat
    (pixels ≤ data.length →
      ofData jpeg data width height .nv12 = ofData jpeg data width height .gray8) ∧
    (2 * pixels ≤ data.length →
      ofData jpeg data width height .yuyv4 = ofData jpeg (everySecond data) width height .gray8) ∧
    (∀ i, (everySecond data)[i]? = data[2 * i]?) ∧
    (3 * pixels ≤ data.length →
      ofData jpeg data width height .bgr24 = ofData jpeg (exchangeEnds data) width height .rgb24) ∧
    (∀ i, 3 * i + 2 < data.length →
      (exchangeEnds data)[3 * i]? = data[3 * i + 2]? ∧
      (exchangeEnds data)[3 * i + 1]? = data[3 * i + 1]? ∧
      (exchangeEnds data)[3 * i + 2]? = data[3 * i]?) ∧
    ∀ format k other, format.bytesPerPixel? = some k → k * pixels ≤ data.length →
      k * pixels ≤ other.length → LookAlike format k pixels data other →
      (∃ value, ofData jpeg data width height format = .ok value) ∧
      ofData jpeg data width height format = ofData jpeg other width height format := by
  intro pixels
  have hone : 1 * pixels < UInt64.size := by omega
  have htwo : 2 * pixels < UInt64.size := by omega
  refine ⟨fun h => ?_, fun h => ?_, getElem?_everySecond data, fun h => ?_,
    fun i => getElem?_exchangeEnds data, fun format k other hk hd ho hlike => ?_⟩
  · have hlong : 1 * pixels ≤ data.length := by omega
    rw [ofData_of_long rfl hone hzero hlong, ofData_of_long rfl hone hzero hlong]
    rfl
  · have hlong : 1 * pixels ≤ (everySecond data).length :=
      (Nat.one_mul pixels).symm ▸ length_everySecond h
    rw [ofData_of_long rfl htwo hzero h, ofData_of_long rfl hone hzero hlong,
      brightness_everySecond]
  · have hlong : 3 * pixels ≤ (exchangeEnds data).length := by rwa [length_exchangeEnds]
    rw [ofData_of_long rfl hfits hzero h, ofData_of_long rfl hfits hzero hlong,
      brightness_exchangeEnds h]
  · have hk3 : k ≤ 3 := by cases format <;> cases hk <;> decide
    have hsize : k * pixels < UInt64.size :=
      Nat.lt_of_le_of_lt (Nat.mul_le_mul_right pixels hk3) hfits
    rw [ofData_of_long hk hsize hzero hd, ofData_of_long hk hsize hzero ho, hlike.brightness hk]
    exact ⟨⟨_, rfl⟩, rfl⟩

-- Two pixels, with chroma bytes that differ and bytes after the pixels that differ.
theorem formats_agree_on_two_pixels :
    let jpeg : JpegDecoder := .blind
    ofData jpeg [10, 200, 30, 200] 2 1 .yuyv4 = ofData jpeg [10, 30] 2 1 .gray8 ∧
    ofData jpeg [10, 200, 30, 200] 2 1 .yuyv4 = ofData jpeg [10, 0, 30, 255, 7] 2 1 .yuyv4 := by
  intro jpeg
  have ⟨_, hyuyv, _, _, _, hsame⟩ :=
    formats_agree jpeg 2 1 [10, 200, 30, 200] (by decide) (by decide)
  refine ⟨hyuyv (by decide), (hsame .yuyv4 2 [10, 0, 30, 255, 7] rfl (by decide) (by decide) ?_).2⟩
  unfold LookAlike
  decide

end Luma

end DayNight
