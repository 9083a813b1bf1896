import DayNight.Named
import Mathlib.Data.List.Basic

namespace DayNight.Named

variable {α β : Type} {n : Named α} {name other : String} {a : α} {f : α → β} {g : α → α}

def map (n : Named α) (f : α → β) : Named β where
  entries := n.entries.map fun entry => (entry.1, f entry.2)
  unique  := by
    rw [List.map_map]
    exact n.unique

theorem get?_map : (n.map f).get? name = (n.get? name).map f := by
  simp only [get?, map]
  induction n.entries
  case nil => rfl
  case cons entry entries ih =>
    rw [List.map_cons, List.lookup_cons, List.lookup_cons, ih]
    cases name == entry.1 <;> rfl

theorem map_erase : (n.erase name).map f = (n.map f).erase name := by
  ext1
  simp [map, erase, List.filter_map, Function.comp_def]

theorem map_put : (n.put name a).map f = (n.map f).put name (f a) := by
  have h : ((n.erase name).map f).entries = ((n.map f).erase name).entries := by rw [map_erase]
  ext1
  simpa [map, put] using h

theorem map_modify {g' : β → β} (h : ∀ a, f (g a) = g' (f a)) :
    (n.modify name g).map f = (n.map f).modify name g' := by
  ext1
  simp only [map, modify, List.map_map]
  refine List.map_congr_left fun entry _ => ?_
  simp only [Function.comp_apply]
  split
  case isTrue  => rw [h]
  case isFalse => rfl

theorem modify_id : n.modify name id = n := by
  ext1
  simp [modify]

theorem map_modify_of_same (h : ∀ a, f (g a) = f a) : (n.modify name g).map f = n.map f :=
  (map_modify h).trans modify_id

theorem values_map : (n.map f).values = n.values.map f := by
  simp [values, map]

theorem erase_modify : (n.modify name g).erase name = n.erase name := by
  ext1
  simp only [modify, erase, List.filter_map, Function.comp_def]
  refine (List.map_congr_left fun entry hm => ?_).trans (List.map_id _)
  have hn : entry.1 ≠ name := by simpa using (List.mem_filter.mp hm).2
  rw [if_neg hn]
  rfl

theorem get?_modify : (n.modify name g).get? name = (n.get? name).map g := by
  simp only [get?, modify]
  induction n.entries
  case nil => rfl
  case cons entry entries ih =>
    rw [List.map_cons, List.lookup_cons, List.lookup_cons, ih]
    by_cases he : name = entry.1
    case pos => simp [he]
    case neg => rw [beq_false_of_ne he]

theorem get?_erase_self : (n.erase name).get? name = none :=
  List.lookup_eq_none_iff.mpr fun entry hm => by
    have hn : entry.1 ≠ name := by simpa using (List.mem_filter.mp hm).2
    simpa using Ne.symm hn

theorem get?_erase_of_ne (h : name ≠ other) : (n.erase other).get? name = n.get? name := by
  simp only [get?, erase]
  induction n.entries
  case nil => rfl
  case cons entry entries ih =>
    by_cases he : entry.1 = other
    case pos =>
      have hn : name ≠ entry.1 := he ▸ h
      rw [List.filter_cons_of_neg (by simpa using he), List.lookup_cons, beq_false_of_ne hn, ih]
    case neg =>
      rw [List.filter_cons_of_pos (by simpa using he), List.lookup_cons, List.lookup_cons, ih]

theorem get?_put_self : (n.put name a).get? name = some a := List.lookup_cons_self

theorem get?_put_of_ne (h : name ≠ other) : (n.put other a).get? name = n.get? name := by
  have hc : (n.put other a).get? name = (n.erase other).get? name := by
    simp only [get?, put, List.lookup_cons, beq_false_of_ne h]
  exact hc.trans (get?_erase_of_ne h)

theorem get?_modify_of_get? (h : n.get? name = some a) :
    (n.modify name g).get? name = some (g a) := by
  rw [get?_modify, h]
  rfl

theorem get?_modify_of_ne (h : name ≠ other) : (n.modify other g).get? name = n.get? name := by
  simp only [get?, modify]
  induction n.entries
  case nil => rfl
  case cons entry entries ih =>
    rw [List.map_cons, List.lookup_cons, List.lookup_cons, ih]
    by_cases he : entry.1 = other
    case pos => rw [beq_false_of_ne (he ▸ h : name ≠ entry.1)]
    case neg => rw [if_neg he]

-- Each value is under the name, or under another one.
theorem countP_values (n : Named α) (name : String) (p : α → Bool) :
    n.values.countP p = (n.erase name).values.countP p + (n.get? name).toList.countP p := by
  obtain ⟨entries, unique⟩ := n
  simp only [values, erase, get?]
  induction entries
  case nil => rfl
  case cons entry entries ih =>
    obtain ⟨key, a⟩ := entry
    obtain ⟨hk, unique⟩ := List.nodup_cons.mp unique
    have ih := ih unique
    rw [List.map_cons, List.countP_cons, List.lookup_cons]
    by_cases he : key = name
    case pos =>
      subst he
      -- There is no other entry of that name.
      have hn (entry : String × α) (hm : entry ∈ entries) : entry.1 ≠ key :=
        fun h => hk (h ▸ List.mem_map_of_mem (f := (·.1)) hm)
      have hf : entries.filter (fun entry => entry.1 ≠ key) = entries :=
        List.filter_eq_self.mpr fun entry hm => by simpa using hn entry hm
      rw [List.filter_cons_of_neg (by simp), hf, beq_self_eq_true]
      exact congrArg _ (List.countP_singleton ..).symm
    case neg =>
      rw [List.filter_cons_of_pos (by simpa using he), beq_false_of_ne (Ne.symm he), ih,
        List.map_cons, List.countP_cons]
      exact Nat.add_right_comm ..

theorem countP_values_put (n : Named α) (name : String) (a : α) (p : α → Bool) :
    (n.put name a).values.countP p = (n.erase name).values.countP p + [a].countP p := by
  rw [values, put, List.map_cons, List.countP_cons, List.countP_singleton]
  rfl

theorem countP_values_modify (n : Named α) (name : String) (g : α → α) (p : α → Bool) :
    (n.modify name g).values.countP p =
      (n.erase name).values.countP p + ((n.get? name).map g).toList.countP p := by
  rw [countP_values _ name, erase_modify, get?_modify]

end DayNight.Named
