import DayNight.Setting.Path

namespace DayNight.Setting

open Text (lowerKey)

variable {key other name : String} {value old child s : Setting} {path : List Step}
         {entries new : List (String × Setting)}

theorem lookup_cons_eq : List.lookup other ((key, value) :: entries) =
    if other = key then some value else entries.lookup other := by
  rw [List.lookup_cons]
  by_cases h : other = key
  case pos => rw [if_pos h, beq_iff_eq.mpr h]
  case neg => rw [if_neg h, beq_false_of_ne h]

theorem lookup_setEntry : (setEntry key value entries).lookup other =
    if other = key then some value else entries.lookup other := by
  induction entries
  case nil => exact lookup_cons_eq
  case cons entry entries ih =>
    obtain ⟨k, old⟩ := entry
    rw [setEntry]
    split
    case isTrue hk =>
      subst hk
      rw [lookup_cons_eq, lookup_cons_eq]
      split <;> rfl
    case isFalse hk =>
      rw [lookup_cons_eq, lookup_cons_eq, ih]
      by_cases h : other = k
      case pos => rw [if_pos h, if_pos h, if_neg (h ▸ hk)]
      case neg => rw [if_neg h, if_neg h]

theorem map_fst_setEntry : (setEntry key value entries).map (·.1) =
    if key ∈ entries.map (·.1) then entries.map (·.1) else entries.map (·.1) ++ [key] := by
  induction entries
  case nil => rfl
  case cons entry entries ih =>
    rw [setEntry]
    split
    case isTrue hk => simp [hk]
    case isFalse hk =>
      rw [List.map_cons, ih, List.map_cons]
      by_cases hm : key ∈ entries.map (·.1)
      case pos => rw [if_pos hm, if_pos (List.mem_cons_of_mem _ hm)]
      case neg =>
        have hn : key ∉ entry.1 :: entries.map (·.1) := fun h =>
          (List.mem_cons.mp h).elim (fun he => hk he.symm) hm
        rw [if_neg hm, if_neg hn]
        rfl

-- What a value makes of the old one in its place.
def put : Setting → Setting → Setting
  | table new, old => mergeEntries new old
  | value, _ => value

theorem merge_eq (key : String) (value old : Setting) : merge key value old =
    table (setEntry (lowerKey key)
      (value.put ((old.entries.lookup (lowerKey key)).getD (table []))) old.entries) := by
  cases value
  case table => rw [merge, put]
  all_goals rw [merge]; rfl

-- A value, and a path from the place that it changes to the place where it is put.
structure Change where
  path  : List Step
  value : Setting

def Change.apply (change : Change) (old : Setting) : Setting :=
  match change.path with
  | [] => change.value.put old
  | step :: path => assign change.value (step :: path) old

-- A table with that value under the key.
def Holds (s : Setting) (key : String) (value : Setting) : Prop :=
  ∃ entries, s = table entries ∧ entries.lookup key = some value

theorem Holds.assign (h : s.Holds key child) (name : String) (path : List Step) (value : Setting) :
    (assign value (.key name :: path) s).Holds key
      (if key = lowerKey name then Change.apply ⟨path, value⟩ child else child) := by
  obtain ⟨entries, rfl, hl⟩ := h
  cases path
  case nil =>
    rw [Setting.assign, merge_eq]
    refine ⟨_, rfl, ?_⟩
    rw [lookup_setEntry]
    split
    case isTrue hk  => subst hk; simp [Setting.entries, hl, Change.apply]
    case isFalse hk => exact hl
  case cons step path =>
    rw [Setting.assign]
    refine ⟨_, rfl, ?_⟩
    rw [lookup_setEntry]
    split
    case isTrue hk  => subst hk; simp [Setting.entries, hl, Change.apply]
    case isFalse hk => exact hl

end DayNight.Setting
