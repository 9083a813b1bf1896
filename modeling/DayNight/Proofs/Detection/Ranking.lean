import DayNight.Detection.Basic
import Mathlib.Data.List.Pairwise

namespace DayNight

namespace Confidence

variable {a b c : Confidence}

def isNegative (c : Confidence) : Bool := 0x80000000 ≤ c.bits.toNat

-- The number without its sign. First comes zero, then the finite numbers, infinity, and last what
-- is no number.
def magnitude (c : Confidence) : Nat := c.bits.toNat % 0x80000000

-- Negative numbers come before the others, and those of a larger magnitude come first among them.
def AtMost (a b : Confidence) : Prop :=
  match a.isNegative, b.isNegative with
  | false, false => a.magnitude ≤ b.magnitude
  | true, true => b.magnitude ≤ a.magnitude
  | true, false => True
  | false, true => False

-- The rank counts up from zero for positive numbers, and down from `-1` for negative ones.
theorem rank_eq (c : Confidence) :
    c.rank = if c.isNegative then -1 - (c.magnitude : Int) else c.magnitude := by
  have hc := c.bits.toNat_lt
  simp only [rank, isNegative, magnitude, decide_eq_true_eq]
  split <;> split <;> omega

theorem rank_le_iff : a.rank ≤ b.rank ↔ a.AtMost b := by
  rw [rank_eq, rank_eq, AtMost]
  cases a.isNegative <;> cases b.isNegative <;> simp <;> omega

theorem AtMost.trans (hab : a.AtMost b) (hbc : b.AtMost c) : a.AtMost c :=
  rank_le_iff.mp (Int.le_trans (rank_le_iff.mpr hab) (rank_le_iff.mpr hbc))

theorem AtMost.total (a b : Confidence) : a.AtMost b ∨ b.AtMost a :=
  (Int.le_total a.rank b.rank).imp rank_le_iff.mp rank_le_iff.mp

theorem eq_of_rank_eq (h : a.rank = b.rank) : a = b := by
  have ha := a.bits.toNat_lt
  have hb := b.bits.toNat_lt
  have hbits : a.bits.toNat = b.bits.toNat := by
    simp only [rank] at h
    split at h <;> split at h <;> omega
  exact congrArg mk (UInt32.toNat_inj.mp hbits)

-- Only what has the same bits has the same place.
theorem AtMost.antisymm (hab : a.AtMost b) (hba : b.AtMost a) : a = b :=
  eq_of_rank_eq (Int.le_antisymm (rank_le_iff.mpr hab) (rank_le_iff.mpr hba))

end Confidence

namespace Box

variable {boxes ranked other kept : List Box} {limit : Nat}

-- The boxes in their order, none of them changed, left out or doubled.
structure IsRanking (boxes ranked : List Box) : Prop where
  perm       : ranked.Perm boxes
  descending : ranked.Pairwise fun a b => b.confidence.AtMost a.confidence
  stable     : ∀ c, ranked.filter (·.confidence = c) = boxes.filter (·.confidence = c)

theorem byConfidence_isRanking (boxes : List Box) : IsRanking boxes (byConfidence boxes) := by
  have trans (a b c : Box) : decide (b.confidence.rank ≤ a.confidence.rank) = true →
      decide (c.confidence.rank ≤ b.confidence.rank) = true →
      decide (c.confidence.rank ≤ a.confidence.rank) = true := by
    simp only [decide_eq_true_eq]
    exact fun hab hbc => Int.le_trans hbc hab
  have total (a b : Box) : (decide (b.confidence.rank ≤ a.confidence.rank) ||
      decide (a.confidence.rank ≤ b.confidence.rank)) = true := by
    simpa using Int.le_total b.confidence.rank a.confidence.rank
  have perm : (byConfidence boxes).Perm boxes := List.mergeSort_perm ..
  refine ⟨perm, ?_, fun c => ?_⟩
  · refine (List.pairwise_mergeSort trans total boxes).imp fun h => ?_
    exact Confidence.rank_le_iff.mp (of_decide_eq_true h)
  · -- Boxes of one confidence are in order already, so the sort leaves them as they are.
    have hsub : (boxes.filter (·.confidence = c)).Sublist (byConfidence boxes) := by
      refine List.sublist_mergeSort trans total ?_ List.filter_sublist
      refine List.pairwise_of_forall_mem_list fun a ha b hb => ?_
      have ha : a.confidence = c := by simpa using (List.mem_filter.mp ha).2
      have hb : b.confidence = c := by simpa using (List.mem_filter.mp hb).2
      simp [ha, hb]
    have hsub := hsub.filter (·.confidence = c)
    rw [List.filter_filter] at hsub
    simp only [Bool.and_self] at hsub
    exact (hsub.eq_of_length (perm.filter _).length_eq.symm).symm

theorem mem_of_filter_eq {a : Box}
    (h : ∀ c, ranked.filter (·.confidence = c) = other.filter (·.confidence = c))
    (ha : a ∈ ranked) : a ∈ other := by
  have hm : a ∈ other.filter (·.confidence = a.confidence) := by simp [← h, ha]
  exact (List.mem_filter.mp hm).1

-- Ordered lists agree if they do so on the boxes of each confidence.
theorem eq_of_filter_eq (hr : ranked.Pairwise fun a b => b.confidence.AtMost a.confidence)
    (ho : other.Pairwise fun a b => b.confidence.AtMost a.confidence)
    (h : ∀ c, ranked.filter (·.confidence = c) = other.filter (·.confidence = c)) :
    ranked = other := by
  induction ranked generalizing other
  case nil =>
    cases other
    case nil      => rfl
    case cons b _ => simpa using h b.confidence
  case cons a ranked ih =>
    cases other
    case nil => simpa using h a.confidence
    case cons b other =>
      have ⟨hra, hranked⟩ := List.pairwise_cons.mp hr
      have ⟨hob, hother⟩ := List.pairwise_cons.mp ho
      -- Each of the first boxes is in the other list too, so they are equally confident.
      have hab : a.confidence = b.confidence := by
        have ha : a ∈ b :: other := mem_of_filter_eq h List.mem_cons_self
        have hb : b ∈ a :: ranked := mem_of_filter_eq (fun c => (h c).symm) List.mem_cons_self
        cases ha
        case head => rfl
        case tail ha =>
          cases hb
          case head    => rfl
          case tail hb => exact (hob a ha).antisymm (hra b hb)
      have heq := h a.confidence
      rw [List.filter_cons_of_pos (by simp), List.filter_cons_of_pos (by simp [hab])] at heq
      obtain ⟨rfl, -⟩ := List.cons.inj heq
      refine congrArg (a :: ·) (ih hranked hother fun c => ?_)
      have hc := h c
      by_cases hac : a.confidence = c
      case pos =>
        rw [List.filter_cons_of_pos (by simpa), List.filter_cons_of_pos (by simpa)] at hc
        exact (List.cons.inj hc).2
      case neg =>
        rwa [List.filter_cons_of_neg (by simpa), List.filter_cons_of_neg (by simpa)] at hc

-- There is one ranking only.
theorem IsRanking.eq_byConfidence (h : IsRanking boxes ranked) : ranked = byConfidence boxes :=
  have hb := byConfidence_isRanking boxes
  eq_of_filter_eq h.descending hb.descending fun c => (h.stable c).trans (hb.stable c).symm

-- What is kept if there is room for `limit` boxes: all of them as they are, or those that come
-- first in the ranking.
structure IsBest (limit : Nat) (boxes kept : List Box) : Prop where
  length : kept.length = min boxes.length limit
  all    : boxes.length ≤ limit → kept = boxes
  best   : limit < boxes.length → ∃ dropped, IsRanking boxes (kept ++ dropped) ∧
    (∀ ranked, IsRanking boxes ranked → ranked = kept ++ dropped) ∧
    ∀ a ∈ kept, ∀ b ∈ dropped, b.confidence.AtMost a.confidence

theorem keepBest_isBest (limit : Nat) (boxes : List Box) :
    IsBest limit boxes (keepBest limit boxes) := by
  unfold keepBest
  split
  case isFalse hl =>
    exact ⟨(Nat.min_eq_left (Nat.not_lt.mp hl)).symm, fun _ => rfl, fun h => absurd h hl⟩
  case isTrue hl =>
    have hr := byConfidence_isRanking boxes
    have hsplit := List.take_append_drop limit (byConfidence boxes)
    refine ⟨?_, fun h => absurd hl (Nat.not_lt.mpr h), fun _ => ?_⟩
    · rw [List.length_take, hr.perm.length_eq, Nat.min_comm]
    · refine ⟨(byConfidence boxes).drop limit, hsplit.symm ▸ hr, fun ranked h => ?_, ?_⟩
      · rw [hsplit]
        exact h.eq_byConfidence
      · have hp := hr.descending
        rw [← hsplit] at hp
        exact (List.pairwise_append.mp hp).2.2

end Box

end DayNight
