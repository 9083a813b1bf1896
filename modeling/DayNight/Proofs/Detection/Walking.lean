import DayNight.Detection.Walking
import Mathlib.Data.Int.ModEq

namespace DayNight

-- All of the box is on the frame, and there is something of it.
structure Box.Inside (box : Box) (width height : UInt32) : Prop where
  wide   : 1 ≤ box.w.toInt
  high   : 1 ≤ box.h.toInt
  left   : 0 ≤ box.x.toInt
  top    : 0 ≤ box.y.toInt
  right  : box.x.toInt + box.w.toInt ≤ width.toNat
  bottom : box.y.toInt + box.h.toInt ≤ height.toNat

namespace WalkingDetector

-- The signed word for a number, if there is one.
def signed? (n : Int) : Option Int32 :=
  if -0x80000000 ≤ n ∧ n < 0x80000000 then some (Int32.ofInt n) else none

def quarter? (side : Int32) : Option Int32 := (signed? (side.toInt.tdiv 4)).map (max · 1)

def remainder? (n divisor : Nat) : Option Nat := if divisor = 0 then none else some (n % divisor)

-- What the detector computes, by arithmetic that has no result where signed words would overflow
-- or a divisor is zero.
def inferExactly? (d : WalkingDetector) (width height : UInt32) (sequence : UInt64) :
    Option (Except DetectorError (List Box)) :=
  let width := width.toInt32
  let height := height.toInt32
  if width ≤ 0 ∨ height ≤ 0 then
    some (.error ⟨"frame " ++ toString sequence.toNat ++ " has no pixels"⟩)
  else do
    let w ← quarter? width
    let h ← quarter? height
    let free ← signed? (width.toInt - w.toInt)
    let positions ← signed? (free.toInt + 1)
    let x ← signed? (← remainder? sequence.toNat (max positions 1).toInt.toNat)
    let rest ← signed? (height.toInt - h.toInt)
    let y ← signed? (rest.toInt.tdiv 2)
    let classId ← remainder? sequence.toNat d.classes.toNat
    return .ok [{
      classId := UInt32.ofNat classId
      confidence := confidence
      x := x
      y := y
      w := w
      h := h }]

section Words

variable {width side a : Int32}

-- A word that is what a number should be shows that the number has one.
theorem signed?_eq_some {n : Int} (h : a.toInt = n) : signed? n = some a := by
  subst h
  rw [signed?, if_pos ⟨a.le_toInt, a.toInt_lt⟩, Int32.ofInt_toInt]

theorem remainder?_eq (n : Nat) {divisor : Nat} (h : 0 < divisor) :
    remainder? n divisor = some (n % divisor) :=
  if_neg (Nat.ne_of_gt h)

theorem toInt_max (a b : Int32) : (max a b).toInt = max a.toInt b.toInt := by
  have hm : max a b = if a ≤ b then b else a := rfl
  rw [hm]
  split
  case isTrue h  => exact (max_eq_right (Int32.le_iff_toInt_le.mp h)).symm
  case isFalse h => exact (max_eq_left (Int.le_of_not_le (mt Int32.le_iff_toInt_le.mpr h))).symm

-- A word with its highest bit set counts as negative.
theorem toInt_toInt32 (side : UInt32) : side.toInt32.toInt =
    if side.toNat < 0x80000000 then (side.toNat : Int) else side.toNat - 0x100000000 := by
  have hc : side.toInt32.toInt = _ := BitVec.toInt_eq_toNat_cond side.toBitVec
  rw [hc]
  exact if_congr (Nat.mul_lt_mul_left (Nat.zero_lt_succ 1) (c := 0x80000000)) rfl rfl

theorem toInt32_pos_iff {side : UInt32} :
    0 < side.toInt32.toInt ↔ 0 < side.toNat ∧ side.toNat < 0x80000000 := by
  have hl := side.toNat_lt
  rw [toInt_toInt32]
  split <;> omega

theorem toInt_toInt32_of_lt {w : UInt64} (h : w.toNat < 0x80000000) :
    w.toInt64.toInt32.toInt = w.toNat := by
  have hw : w.toInt64.toInt = w.toNat :=
    BitVec.toInt_eq_toNat_of_lt
      (Nat.lt_trans (Nat.mul_lt_mul_of_pos_left h Nat.two_pos) (by decide))
  rw [Int64.toInt_toInt32, hw]
  exact Int.bmod_eq_of_le (by simp) (by simp; omega)

theorem toNat_toUInt64_of_nonneg (h : 0 ≤ a.toInt) : a.toInt64.toUInt64.toNat = a.toInt.toNat := by
  have hn : 0 ≤ a.toInt64 := Int64.le_iff_toInt_le.mpr (a.toInt_toInt64.symm ▸ h)
  rw [Int64.toNat_toUInt64_of_le hn, Int64.toNatClampNeg, a.toInt_toInt64]

theorem toInt_fourth (side : Int32) : (side / 4).toInt = side.toInt.tdiv 4 :=
  Int32.toInt_div_of_ne_right side 4 (by decide)

theorem toInt_half (side : Int32) : (side / 2).toInt = side.toInt.tdiv 2 :=
  Int32.toInt_div_of_ne_right side 2 (by decide)

theorem quarter?_eq (side : Int32) : quarter? side = some (quarter side) := by
  rw [quarter?, signed?_eq_some (toInt_fourth side)]
  rfl

theorem toInt_quarter (h : 0 < side.toInt) : (quarter side).toInt = max (side.toInt / 4) 1 := by
  rw [quarter, toInt_max, toInt_fourth, Int.tdiv_eq_ediv_of_nonneg (Int.le_of_lt h)]
  rfl

theorem quarter_pos (h : 0 < side.toInt) : 1 ≤ (quarter side).toInt := by
  rw [toInt_quarter h]
  exact le_max_right ..

theorem quarter_le (h : 0 < side.toInt) : (quarter side).toInt ≤ side.toInt := by
  rw [toInt_quarter h]
  exact max_le (Int.ediv_le_self _ (Int.le_of_lt h)) h

theorem toInt_sub_quarter (h : 0 < side.toInt) :
    (side - quarter side).toInt = side.toInt - (quarter side).toInt :=
  Int32.toInt_sub_of_le side _ (Int32.le_iff_toInt_le.mpr (Int.le_of_lt (quarter_pos h)))
    (Int32.le_iff_toInt_le.mpr (quarter_le h))

theorem toInt_places (h : 0 < width.toInt) :
    (width - quarter width + 1).toInt = (width - quarter width).toInt + 1 := by
  have hq := quarter_pos h
  have hl := quarter_le h
  have hw := width.toInt_lt
  rw [Int32.toInt_add, toInt_sub_quarter h]
  exact Int.bmod_eq_of_le (by simp; omega) (by simp; omega)

-- There is at least one place, so the lower bound on their number is never needed.
theorem toInt_max_places (h : 0 < width.toInt) :
    (max (width - quarter width + 1) 1).toInt = width.toInt - (quarter width).toInt + 1 := by
  have hl := quarter_le h
  rw [toInt_max, toInt_places h, toInt_sub_quarter h]
  exact max_eq_left (by simp; omega)

theorem toNat_positions_eq (h : 0 < width.toInt) :
    (positions width).toNat = (max (width - quarter width + 1) 1).toInt.toNat := by
  have hl := quarter_le h
  refine toNat_toUInt64_of_nonneg ?_
  rw [toInt_max_places h]
  omega

theorem toNat_positions (h : 0 < width.toInt) :
    ((positions width).toNat : Int) = width.toInt - (quarter width).toInt + 1 := by
  have hl := quarter_le h
  rw [toNat_positions_eq h, toInt_max_places h]
  omega

theorem positions_pos (h : 0 < width.toInt) : 0 < (positions width).toNat := by
  have hl := quarter_le h
  have hp := toNat_positions h
  omega

theorem toInt_walked (h : 0 < width.toInt) (sequence : UInt64) :
    (sequence % positions width).toInt64.toInt32.toInt =
      (sequence.toNat % (positions width).toNat : Nat) := by
  have hq := quarter_pos h
  have hw := width.toInt_lt
  have hp := toNat_positions h
  have hx := Nat.mod_lt sequence.toNat (positions_pos h)
  rw [toInt_toInt32_of_lt, UInt64.toNat_mod]
  rw [UInt64.toNat_mod]
  omega

theorem toUInt32_mod (sequence : UInt64) (classes : UInt32) :
    (sequence % classes.toUInt64).toUInt32 = UInt32.ofNat (sequence.toNat % classes.toNat) := by
  rw [← UInt32.toNat_inj, UInt64.toNat_toUInt32, UInt64.toNat_mod, UInt32.toNat_toUInt64,
    UInt32.toNat_ofNat']

end Words

variable {d : WalkingDetector} {width height : UInt32} {sequence : UInt64} {box : Box}

theorem toNat_classes_new (classes : UInt32) (latency : Duration) :
    (new classes latency).classes.toNat = max classes.toNat 1 := by
  have hm : max classes 1 = if classes ≤ 1 then 1 else classes := rfl
  rw [new, hm]
  split
  case isTrue h  => exact (max_eq_right (UInt32.le_iff_toNat_le.mp h)).symm
  case isFalse h => exact (max_eq_left (Nat.le_of_not_le (mt UInt32.le_iff_toNat_le.mpr h))).symm

-- The box in plain numbers.
structure Walks (d : WalkingDetector) (width height : UInt32) (sequence : UInt64) (box : Box) :
    Prop where
  w       : box.w.toInt = max ((width.toNat : Int) / 4) 1
  h       : box.h.toInt = max ((height.toNat : Int) / 4) 1
  x       : box.x.toInt = sequence.toNat % (width.toNat - box.w.toInt + 1)
  y       : box.y.toInt = (height.toNat - box.h.toInt) / 2
  classId : box.classId.toNat = sequence.toNat % d.classes.toNat

def HasPixels (width height : UInt32) : Prop :=
  0 < width.toInt32.toInt ∧ 0 < height.toInt32.toInt

theorem not_hasPixels_iff :
    ¬ HasPixels width height ↔ width.toInt32 ≤ 0 ∨ height.toInt32 ≤ 0 := by
  rw [HasPixels, Int32.le_iff_toInt_le, Int32.le_iff_toInt_le, not_and_or]
  exact or_congr Int.not_lt Int.not_lt

theorem hasPixels_iff : HasPixels width height ↔
    ¬ ((width = 0 ∨ 2 ^ 31 ≤ width.toNat) ∨ height = 0 ∨ 2 ^ 31 ≤ height.toNat) := by
  rw [HasPixels, toInt32_pos_iff, toInt32_pos_iff, ← UInt32.toNat_inj, ← UInt32.toNat_inj]
  simp only [UInt32.toNat_zero]
  omega

theorem toInt_of_pos {side : UInt32} (h : 0 < side.toInt32.toInt) :
    side.toInt32.toInt = side.toNat := by
  rw [toInt_toInt32, if_pos (toInt32_pos_iff.mp h).2]

theorem infer_of_not_hasPixels (h : ¬ HasPixels width height) :
    d.infer width height sequence =
      .error ⟨"frame " ++ toString sequence.toNat ++ " has no pixels"⟩ :=
  if_pos (not_hasPixels_iff.mp h)

theorem infer_of_hasPixels (hc : 0 < d.classes.toNat) (h : HasPixels width height)
    (sequence : UInt64) :
    ∃ box, d.infer width height sequence = .ok [box] ∧ Walks d width height sequence box := by
  have hn := mt not_hasPixels_iff.mpr (not_not.mpr h)
  obtain ⟨hw, hh⟩ := h
  refine ⟨_, if_neg hn, ?_⟩
  constructor
  case w => rw [toInt_quarter hw, toInt_of_pos hw]
  case h => rw [toInt_quarter hh, toInt_of_pos hh]
  case x =>
    rw [toInt_walked hw, Int.natCast_emod, toNat_positions hw, toInt_of_pos hw]
  case y =>
    have hl := quarter_le hh
    rw [toInt_half, toInt_sub_quarter hh, Int.tdiv_eq_ediv_of_nonneg (by omega), toInt_of_pos hh]
  case classId =>
    have hlt := Nat.mod_lt sequence.toNat hc
    rw [toUInt32_mod, UInt32.toNat_ofNat_of_lt' (Nat.lt_trans hlt d.classes.toNat_lt)]

-- No signed word overflows on the way to the answer, and no divisor is zero.
theorem inferExactly?_eq (hc : 0 < d.classes.toNat) (width height : UInt32) (sequence : UInt64) :
    d.inferExactly? width height sequence = some (d.infer width height sequence) := by
  unfold inferExactly? infer
  by_cases h : HasPixels width height
  case neg =>
    have hn := not_hasPixels_iff.mp h
    rw [if_pos hn, if_pos hn]
  case pos =>
    have hn := mt not_hasPixels_iff.mpr (not_not.mpr h)
    obtain ⟨hw, hh⟩ := h
    have hx := toInt_walked hw sequence
    have hturn := remainder?_eq sequence.toNat (positions_pos hw)
    rw [toNat_positions_eq hw] at hx hturn
    rw [if_neg hn, if_neg hn, toUInt32_mod]
    simp only [Option.bind_eq_bind, Option.bind_eq_some_iff]
    exact ⟨_, quarter?_eq _, _, quarter?_eq _, _, signed?_eq_some (toInt_sub_quarter hw),
      _, signed?_eq_some (toInt_places hw), _, hturn, _, signed?_eq_some hx,
      _, signed?_eq_some (toInt_sub_quarter hh), _, signed?_eq_some (toInt_half _),
      _, remainder?_eq _ hc, rfl⟩

theorem Walks.inside (hp : HasPixels width height) (h : Walks d width height sequence box) :
    box.Inside width height := by
  have hw := toInt_of_pos hp.1 ▸ hp.1
  have hh := toInt_of_pos hp.2 ▸ hp.2
  have hbw := h.w
  have hbh := h.h
  have hplaces : 0 < width.toNat - box.w.toInt + 1 := by omega
  have hx := Int.emod_nonneg sequence.toNat (Int.ne_of_gt hplaces)
  have hlt := Int.emod_lt_of_pos sequence.toNat hplaces
  rw [← h.x] at hx hlt
  have hy := h.y
  constructor
  all_goals omega

theorem Walks.natCast_places (hp : HasPixels width height)
    (h : Walks d width height sequence box) :
    ((width.toNat - box.w.toInt.toNat + 1 : Nat) : Int) =
      width.toNat - max ((width.toNat : Int) / 4) 1 + 1 := by
  have hin := h.inside hp
  have hwide := hin.wide
  have hleft := hin.left
  have hright := hin.right
  rw [← h.w]
  omega

-- Of as many consecutive numbers as there are remainders, each has a remainder of its own.
theorem existsUnique_mod {count : Nat} (start : Nat) {x : Nat} (hx : x < count) :
    ∃! n, start ≤ n ∧ n < start + count ∧ n % count = x := by
  have hc : (0 : Int) < count := by omega
  obtain ⟨offset, hl, hr, ho⟩ := Int.existsUnique_equiv ((x : Int) - start) hc
  obtain ⟨offset, rfl⟩ := Int.eq_ofNat_of_zero_le hl
  have hm : (start + offset) % count = x := by
    have hm : start + offset ≡ x [MOD count] := by
      rw [← Int.natCast_modEq_iff, Int.natCast_add]
      exact (ho.add_left start).trans (by rw [add_sub_cancel])
    exact Eq.trans hm (Nat.mod_eq_of_lt hx)
  refine ⟨start + offset, ⟨by omega, by omega, hm⟩, ?_⟩
  rintro n ⟨hln, hrn, hn⟩
  have hsame : n ≡ start + offset [MOD count] := hn.trans hm.symm
  exact hsame.eq_of_abs_lt (abs_lt.mpr (by omega))

section Places

variable {places start x : Nat}
  (hp : (places : Int) = width.toNat - max ((width.toNat : Int) / 4) 1 + 1)

include hp

theorem exists_box_at_iff (hc : 0 < d.classes.toNat) (h : HasPixels width height)
    (sequence : UInt64) :
    (∃ box, d.infer width height sequence = .ok [box] ∧ box.x.toInt = x) ↔
      sequence.toNat % places = x := by
  obtain ⟨box, hi, hw⟩ := infer_of_hasPixels hc h sequence
  have hx := hw.x
  rw [hw.w, ← hp, ← Int.natCast_emod] at hx
  constructor
  · rintro ⟨other, ho, hox⟩
    cases hi.symm.trans ho
    exact Int.ofNat_inj.mp (hx.symm.trans hox)
  · exact fun hm => ⟨box, hi, hm ▸ hx⟩

-- The walk comes by each place once while as many frames go by as there are places.
theorem walks_places (hc : 0 < d.classes.toNat) (h : HasPixels width height)
    (hs : start + places ≤ UInt64.size) (hx : x < places) :
    ∃! s : UInt64, start ≤ s.toNat ∧ s.toNat < start + places ∧
      ∃ box, d.infer width height s = .ok [box] ∧ box.x.toInt = x := by
  have hat := exists_box_at_iff (x := x) hp hc h
  obtain ⟨n, ⟨hl, hr, hn⟩, hu⟩ := existsUnique_mod start hx
  have hto : (UInt64.ofNat n).toNat = n := UInt64.toNat_ofNat_of_lt' (Nat.lt_of_lt_of_le hr hs)
  refine ⟨UInt64.ofNat n, ⟨hto.symm ▸ hl, hto.symm ▸ hr, (hat _).mpr (hto.symm ▸ hn)⟩, ?_⟩
  rintro s ⟨hsl, hsr, hsx⟩
  rw [← hu s.toNat ⟨hsl, hsr, (hat s).mp hsx⟩, UInt64.ofNat_toNat]

end Places

-- A frame is refused exactly if it has no pixels or a side that no signed word holds. In any other
-- there is one box. It stays inside the frame, and as many frames in a row as it has places from
-- left to right take it to each of them once.
theorem walks_inside_frame (classes : UInt32) (latency : Duration) (width height : UInt32)
    (sequence : UInt64) :
    let d := new classes latency
    d.inferExactly? width height sequence = some (d.infer width height sequence) ∧
    ((∃ e, d.infer width height sequence = .error e) ↔
      (width = 0 ∨ 2 ^ 31 ≤ width.toNat) ∨ height = 0 ∨ 2 ^ 31 ≤ height.toNat) ∧
    ∀ boxes, d.infer width height sequence = .ok boxes → ∃ box, boxes = [box] ∧
      box.Inside width height ∧ box.classId.toNat < max classes.toNat 1 ∧
      let places := width.toNat - box.w.toInt.toNat + 1
      ∀ start, start + places ≤ 2 ^ 64 → ∀ x < places, ∃! s : UInt64,
        start ≤ s.toNat ∧ s.toNat < start + places ∧
        ∃ other, d.infer width height s = .ok [other] ∧ other.x.toInt = x := by
  intro d
  have hc : d.classes.toNat = max classes.toNat 1 := toNat_classes_new classes latency
  have hpos : 0 < d.classes.toNat := by omega
  refine ⟨inferExactly?_eq hpos width height sequence, ?_, ?_⟩
  · rw [← not_not (a := _ ∨ _), ← hasPixels_iff]
    constructor
    · rintro ⟨e, he⟩ h
      obtain ⟨_, hi, _⟩ := infer_of_hasPixels hpos h sequence
      cases he.symm.trans hi
    · exact fun h => ⟨_, infer_of_not_hasPixels h⟩
  · intro boxes hboxes
    by_cases h : HasPixels width height
    case neg => cases hboxes.symm.trans (infer_of_not_hasPixels h)
    case pos =>
      obtain ⟨box, hi, hw⟩ := infer_of_hasPixels hpos h sequence
      cases hboxes.symm.trans hi
      refine ⟨box, rfl, hw.inside h, ?_, fun start hs x hx => ?_⟩
      · rw [hw.classId, ← hc]
        exact Nat.mod_lt _ hpos
      · exact walks_places (hw.natCast_places h) hpos h hs hx

-- A frame too narrow for a quarter of it, and the last numbers that there are. The box has three
-- places there, and the last number but one takes it to the rightmost.
theorem walks_inside_narrow_frame :
    let d := new 0 .zero
    let box : Box := ⟨0, confidence, 0, 805306368, 1, 536870911⟩
    d.infer 3 2147483647 18446744073709551615 = .ok [box] ∧ box.Inside 3 2147483647 ∧
    ∃! s : UInt64, 18446744073709551613 ≤ s.toNat ∧ s.toNat < 18446744073709551616 ∧
      ∃ other, d.infer 3 2147483647 s = .ok [other] ∧ other.x.toInt = 2 := by
  intro d box
  have hi : d.infer 3 2147483647 18446744073709551615 = .ok [box] := by decide
  obtain ⟨_, _, ha⟩ := walks_inside_frame 0 .zero 3 2147483647 18446744073709551615
  obtain ⟨_, ⟨⟩, hin, _, hturn⟩ := ha _ hi
  exact ⟨hi, hin, hturn 18446744073709551613 (by decide) 2 (by decide)⟩

end WalkingDetector

end DayNight
