import DayNight.Proofs.Luma.Formats
import DayNight.Synthetic.Camera

namespace DayNight

-- A grey image of one level, but for one brighter column.
structure Image.ShowsBar (image : Image) (level : UInt8) (column : Nat) : Prop where
  format : image.format = .gray8
  length : image.data.length = image.width.toNat * image.height.toNat
  pixel  : ∀ y < image.height.toNat, ∀ x < image.width.toNat,
    image.data[y * image.width.toNat + x]?.map (·.toNat) =
      some (if x = column then min (level.toNat + 32) 255 else level.toNat)

namespace SyntheticCamera

variable {camera : SyntheticCamera} {tick : Nat}

def HasPixels (camera : SyntheticCamera) : Prop := camera.width ≠ 0 ∧ camera.height ≠ 0

theorem hasPixels_iff :
    camera.HasPixels ↔ camera.width.toNat * camera.height.toNat ≠ 0 := by
  rw [HasPixels, Ne, Ne, ← UInt32.toNat_inj, ← UInt32.toNat_inj, ← not_or]
  exact not_congr Nat.mul_eq_zero.symm

theorem toNat_barLevel (level : UInt8) : (barLevel level).toNat = min (level.toNat + 32) 255 := by
  have hl := level.toNat_lt
  rw [barLevel]
  split
  case isTrue h =>
    have h : 223 ≤ level.toNat := UInt8.le_iff_toNat_le.mp h
    rw [Nat.min_eq_right (by omega)]
    rfl
  case isFalse h =>
    have h : level.toNat < 223 := UInt8.lt_iff_toNat_lt.mp (UInt8.not_le.mp h)
    rw [Nat.min_eq_left (by omega), UInt8.toNat_add]
    exact Nat.mod_eq_of_lt (by simp; omega)

theorem length_row (width : Nat) (level : UInt8) (tick : Nat) :
    (row width level tick).length = width := by
  simp [row]

theorem length_render (camera : SyntheticCamera) (tick : Nat) : (camera.render tick).data.length =
    camera.width.toNat * camera.height.toNat := by
  rw [render, List.length_flatten, List.map_replicate, List.sum_replicate, length_row,
    Nat.nsmul_eq_mul, Nat.mul_comm]

theorem getElem?_flatten_replicate {α : Type} (entries : List α) {count y x : Nat} (hy : y < count)
    (hx : x < entries.length) :
    (List.replicate count entries).flatten[y * entries.length + x]? = entries[x]? := by
  induction count generalizing y
  case zero => exact absurd hy (Nat.not_lt_zero y)
  case succ count ih =>
    rw [List.replicate_succ, List.flatten_cons]
    cases y
    case zero => rw [Nat.zero_mul, Nat.zero_add, List.getElem?_append_left hx]
    case succ y =>
      have hplace : (y + 1) * entries.length + x = entries.length + (y * entries.length + x) := by
        rw [Nat.succ_mul]
        omega
      rw [hplace, List.getElem?_append_right (Nat.le_add_right ..), Nat.add_sub_cancel_left]
      exact ih (Nat.lt_of_succ_lt_succ hy)

theorem showsBar_render (camera : SyntheticCamera) (tick : Nat) :
    (camera.render tick).ShowsBar camera.level (tick % camera.width.toNat) where
  format := rfl
  length := camera.length_render tick
  pixel y hy x hx := by
    have hrow := length_row camera.width.toNat camera.level tick
    dsimp only [render] at hy hx ⊢
    have hplace := getElem?_flatten_replicate (row camera.width.toNat camera.level tick) hy
      (hrow.symm ▸ hx)
    rw [hrow] at hplace
    rw [hplace, row, List.getElem?_map, List.getElem?_range hx, Option.map_some,
      Option.map_some]
    split
    case isTrue  => rw [toNat_barLevel]
    case isFalse => rfl

-- One column of the row is brighter, whichever it is.
theorem sum_row {width : Nat} (hw : 0 < width) (level : UInt8) (tick : Nat) :
    ((row width level tick).map (·.toNat)).sum =
      (width - 1) * level.toNat + min (level.toNat + 32) 255 := by
  have hbar : (List.range width).count (tick % width) = 1 := by
    rw [List.count_range, if_pos (Nat.mod_lt tick hw)]
  have hrest : (List.range width).countP (¬ · = tick % width) = width - 1 := by
    have hall := List.length_eq_countP_add_countP (l := List.range width) (· == tick % width)
    rw [List.length_range, ← List.count, hbar] at hall
    simpa using (Nat.sub_eq_of_eq_add' hall).symm
  rw [row, List.map_map]
  simp only [Function.comp_def, apply_ite UInt8.toNat, toNat_barLevel]
  rw [List.sum_map_ite, List.filter_eq, hbar, Nat.add_comm]
  simp only [List.map_const', List.sum_replicate, ← List.countP_eq_length_filter, hrest,
    List.length_replicate, Nat.nsmul_eq_mul, Nat.one_mul]

theorem sum_render (hp : camera.HasPixels) (tick : Nat) :
    ((camera.render tick).data.map (·.toNat)).sum = camera.height.toNat *
      ((camera.width.toNat - 1) * camera.level.toNat + min (camera.level.toNat + 32) 255) := by
  have hw : 0 < camera.width.toNat :=
    Nat.pos_of_ne_zero (Nat.mul_ne_zero_iff.mp (hasPixels_iff.mp hp)).1
  rw [render, List.map_flatten, List.sum_flatten, List.map_replicate, List.map_replicate,
    List.sum_replicate, sum_row hw, Nat.nsmul_eq_mul]

-- The brightness of every image of the camera as it is now.
def steadyLuma (camera : SyntheticCamera) : Float :=
  let level := camera.level.toNat
  let sum := camera.height.toNat * ((camera.width.toNat - 1) * level + min (level + 32) 255)
  Float.ofNat sum / Float.ofNat (camera.width.toNat * camera.height.toNat)

-- Only an image without pixels has no brightness.
theorem luma_render (camera : SyntheticCamera) (tick : Nat) (jpeg : JpegDecoder) :
    (camera.render tick).luma jpeg =
      if camera.width.toNat * camera.height.toNat = 0 then .error .empty
      else .ok camera.steadyLuma := by
  have hlen := camera.length_render tick
  have hone : 1 * (camera.width.toNat * camera.height.toNat) < UInt64.size :=
    (Nat.one_mul _).symm ▸ Luma.pixels_lt ..
  have hl : (camera.render tick).luma jpeg = Luma.sizedExactly .gray8 1 (camera.render tick).data
    camera.width camera.height := Luma.ofData_eq_sizedExactly rfl hone _
  rw [hl, Luma.sizedExactly, Nat.one_mul, hlen, if_neg (Nat.lt_irrefl _)]
  refine ite_congr rfl (fun _ => rfl) fun hzero => ?_
  have hbytes := Luma.bytesAt_one (Nat.le_of_eq hlen.symm)
  rw [List.take_of_length_le (Nat.le_of_eq hlen)] at hbytes
  simp only [Luma.brightness, hbytes, sum_render (hasPixels_iff.mpr hzero)]
  rfl

-- What the camera tells of its brightness, whichever of its images is looked at.
def told (camera : SyntheticCamera) : Except SourceError Float :=
  if camera.width.toNat * camera.height.toNat = 0 then .error (.reading LumaError.empty.message)
  else .ok camera.steadyLuma

variable {camera : SyntheticCamera} {h : SyntheticHandle} {timeout : Duration} {image : Image}

theorem told_of_hasPixels (hp : camera.HasPixels) : camera.told = .ok camera.steadyLuma :=
  if_neg (hasPixels_iff.mp hp)

theorem readImage_eq_ok_iff : (camera.readImage h timeout).1 = .ok image ↔
    (h.closed = false ∧ ¬ timeout < camera.readDelay ∧ camera.failReads = false) ∧
      camera.render (h.tick + 1) = image := by
  unfold readImage
  cases h.closed <;> by_cases ht : timeout < camera.readDelay <;> cases camera.failReads
  all_goals simp [ht]

-- No size of an image breaks the program off, and no decoder is asked.
theorem peek_readImage (jpeg : JpegDecoder) :
    SourceError.peek jpeg (camera.readImage h timeout).1 =
      .ok ((camera.readImage h timeout).1.bind fun _ => camera.told) := by
  cases hr : (camera.readImage h timeout).1
  case error => rfl
  case ok image =>
    obtain ⟨_, rfl⟩ := readImage_eq_ok_iff.mp hr
    simp only [SourceError.peek, luma_render, told, Except.bind]
    by_cases hzero : camera.width.toNat * camera.height.toNat = 0
    case pos => simp only [if_pos hzero]
    case neg => simp only [if_neg hzero]

end SyntheticCamera

end DayNight
