import DayNight.Luma
import Mathlib.Data.List.GetD
import Mathlib.Data.List.Induction
import Mathlib.Algebra.BigOperators.Group.List.Basic
import Mathlib.Algebra.Ring.Nat

namespace DayNight

-- How many bytes there are for each pixel. A compressed image has no such number.
def PixelFormat.bytesPerPixel? : PixelFormat → Option Nat
  | gray8 | nv12 => some 1
  | yuyv4 => some 2
  | rgb24 | bgr24 => some 3
  | mjpeg => none

namespace Luma

variable {data : Bytes} {n : Nat}

-- Bytes beyond the end of the data count as zero.
def byteAt (data : Bytes) (i : Nat) : UInt8 := data.getD i 0

-- The brightness bytes of the first pixels, if one stands at the start of every `step` bytes.
def bytesAt (step : Nat) (data : Bytes) (pixels : Nat) : Bytes :=
  (List.range pixels).map fun i => byteAt data (step * i)

def colourAt (order : Order) (data : Bytes) (i : Nat) : Float :=
  match order with
  | .rgb => weigh (byteAt data (3 * i)) (byteAt data (3 * i + 1)) (byteAt data (3 * i + 2))
  | .bgr => weigh (byteAt data (3 * i + 2)) (byteAt data (3 * i + 1)) (byteAt data (3 * i))

-- The sum over the first pixels. Whole numbers are added exactly, and rounded once.
def brightness (format : PixelFormat) (data : Bytes) (pixels : Nat) : Float :=
  let bytes (step : Nat) : Float := Float.ofNat ((bytesAt step data pixels).map (·.toNat)).sum
  let colours (order : Order) : Float :=
    (List.range pixels).foldl (fun sum i => sum + colourAt order data i) (-0.0)
  match format with
  | .gray8 | .nv12 => bytes 1
  | .yuyv4 => bytes 2
  | .rgb24 => colours .rgb
  | .bgr24 => colours .bgr
  | .mjpeg => 0

-- No number of pixels is too large for a machine word.
theorem pixels_lt (width height : UInt32) : width.toNat * height.toNat < UInt64.size := calc
  _ < 2 ^ 32 * 2 ^ 32 := Nat.mul_lt_mul'' width.toNat_lt height.toNat_lt
  _ = UInt64.size     := by decide

theorem exists_pixelCount (width height : UInt32) : ∃ count,
    pixelCount width height = .ok count ∧ count.toNat = width.toNat * height.toNat := by
  have hlt := pixels_lt width height
  rw [← UInt32.toNat_toUInt64, ← UInt32.toNat_toUInt64 height] at hlt ⊢
  exact ⟨_, Word.multiply_of_lt hlt⟩

theorem total_eq_sum (samples : Bytes) : total samples = (samples.map (·.toNat)).sum := by
  rw [total, List.sum_eq_foldl, List.foldl_map]

theorem length_bytesAt (step : Nat) (data : Bytes) (n : Nat) :
    (bytesAt step data n).length = n := by
  simp [bytesAt]

theorem bytesAt_one (h : n ≤ data.length) : bytesAt 1 data n = data.take n := by
  refine List.ext_getElem (by simp [length_bytesAt, h]) fun i hi _ => ?_
  rw [length_bytesAt] at hi
  simp [bytesAt, byteAt, Nat.lt_of_lt_of_le hi h]

theorem getElem?_everySecond (data : Bytes) (i : Nat) : (everySecond data)[i]? = data[2 * i]? := by
  induction data using List.twoStepInduction generalizing i
  case nil         => rfl
  case singleton a => cases i <;> rfl
  case cons_cons a b rest ih _ =>
    cases i
    case zero   => rfl
    case succ i => exact ih i

theorem bytesAt_two (h : 2 * n ≤ data.length) :
    bytesAt 2 data n = everySecond (data.take (2 * n)) := by
  refine List.ext_getElem? fun i => ?_
  rw [getElem?_everySecond]
  by_cases hi : i < n
  case pos =>
    have hi2 : 2 * i < 2 * n := by omega
    rw [List.getElem?_take_of_lt hi2, bytesAt, List.getElem?_map, List.getElem?_range hi,
      List.getElem?_eq_getElem (by omega), Option.map_some, byteAt, List.getD_eq_getElem]
  case neg =>
    rw [List.getElem?_eq_none (by simpa [length_bytesAt] using hi),
      List.getElem?_eq_none (by simp; omega)]

theorem colourAt_cons (order : Order) (a b c : UInt8) (rest : Bytes) (i : Nat) :
    colourAt order (a :: b :: c :: rest) (i + 1) = colourAt order rest i := by
  cases order <;> rfl

theorem weighAll_eq_foldl (order : Order) (data : Bytes) (sum : Float) :
    weighAll order data sum = (List.range (data.length / 3)).foldl
      (fun sum i => sum + colourAt order data i) sum := by
  fun_induction weighAll order data sum
  case case1 a b c rest sum ih =>
    have hl : (a :: b :: c :: rest).length / 3 = rest.length / 3 + 1 :=
      Nat.add_div_right rest.length (Nat.zero_lt_succ 2)
    rw [hl, List.range_succ_eq_map, List.foldl_cons, List.foldl_map, ih]
    simp only [colourAt_cons]
    cases order <;> rfl
  case case2 data sum h =>
    -- What is left is not a whole pixel.
    match data with
    | [] | [_] | [_, _] => simp
    | a :: b :: c :: rest => exact (h a b c rest rfl).elim

theorem colourAt_take (order : Order) {i : Nat} (hi : 3 * i + 2 < n) :
    colourAt order (data.take n) i = colourAt order data i := by
  have h (j : Nat) (hj : j < n) : byteAt (data.take n) j = byteAt data j := by
    simp [byteAt, List.getD_eq_getElem?_getD, hj]
  unfold colourAt
  rw [h _ hi, h (3 * i + 1) (by omega), h (3 * i) (by omega)]

theorem mean_take (h : n ≤ data.length) : mean (data.take n) =
    Float.ofNat ((bytesAt 1 data n).map (·.toNat)).sum / Float.ofNat n := by
  rw [mean, total_eq_sum, bytesAt_one h, List.length_take_of_le h]

theorem weightedMean_take (order : Order) (h : n ≤ data.length) :
    weightedMean order (data.take n) =
      (List.range (n / 3)).foldl (fun sum i => sum + colourAt order data i) (-0.0) /
        Float.ofNat (n / 3) := by
  rw [weightedMean, weighAll_eq_foldl, List.length_take_of_le h]
  congr 1
  refine List.foldl_ext _ _ _ fun sum i hi => ?_
  have hlt : i < n / 3 := List.mem_range.mp hi
  rw [colourAt_take order (by omega)]

end Luma

end DayNight
