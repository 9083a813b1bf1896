import DayNight.Proofs.Setting.Overlay
import DayNight.Setting.Reading

namespace DayNight.Setting

open Text (lowerKey)

variable {α : Type} {key : String} {old : Setting} {change : Change}

def keys (s : Setting) : List String := s.entries.map (·.1)

theorem keys_assign (name : String) (path : List Step) (value old : Setting) :
    (assign value (.key name :: path) old).keys =
      if lowerKey name ∈ old.keys then old.keys else old.keys ++ [lowerKey name] := by
  cases path
  case nil       => rw [assign, merge_eq]; exact map_fst_setEntry
  case cons step => rw [assign]; exact map_fst_setEntry

-- The only key of a table was its only key before, or the table was empty.
theorem keys_assign_eq_singleton {name : String} {path : List Step} {value : Setting} :
    (assign value (.key name :: path) old).keys = [key] ↔
      lowerKey name = key ∧ (old.keys = [] ∨ old.keys = [key]) := by
  rw [keys_assign]
  split
  case isTrue hm =>
    constructor
    case mp  => exact fun h => ⟨List.mem_singleton.mp (h ▸ hm), .inr h⟩
    case mpr =>
      intro ⟨_, h⟩
      exact h.resolve_left (List.ne_nil_of_mem hm)
  case isFalse hm =>
    have hnil : old.keys = [key] → lowerKey name ≠ key := fun h he =>
      hm (h ▸ List.mem_singleton.mpr he)
    constructor
    case mp =>
      intro h
      cases hk : old.keys
      case nil  => rw [hk] at h; exact ⟨List.singleton_inj.mp h, .inl rfl⟩
      case cons => rw [hk] at h; simp at h
    case mpr =>
      intro ⟨hn, h⟩
      have h := h.resolve_right fun h => hnil h hn
      rw [h, hn]
      rfl

theorem keys_merge_eq_singleton {name : String} {value : Setting} :
    (merge name value old).keys = [key] ↔
      lowerKey name = key ∧ (old.keys = [] ∨ old.keys = [key]) := by
  have h : (assign value [.key name] old).keys = [key] ↔ _ := keys_assign_eq_singleton
  exact h

theorem keys_merge_ne_nil (name : String) (value old : Setting) :
    (merge name value old).keys ≠ [] := by
  have h : (merge name value old).keys = _ := keys_assign name [] value old
  rw [h]
  split
  case isTrue hm => exact List.ne_nil_of_mem hm
  case isFalse   => exact List.append_ne_nil_of_right_ne_nil _ (List.cons_ne_nil _ _)

theorem keys_mergeEntries_eq_singleton {entry : String × Setting}
    {entries : List (String × Setting)} : (mergeEntries (entry :: entries) old).keys = [key] ↔
      (∀ e ∈ entry :: entries, lowerKey e.1 = key) ∧ (old.keys = [] ∨ old.keys = [key]) := by
  induction entries generalizing entry old
  case nil =>
    rw [mergeEntries, mergeEntries, keys_merge_eq_singleton, List.forall_mem_singleton]
  case cons next entries ih =>
    rw [mergeEntries, ih, or_iff_right (keys_merge_ne_nil entry.1 entry.2 old),
      keys_merge_eq_singleton, List.forall_mem_cons (a := entry)]
    exact and_left_comm.trans and_assoc.symm

theorem exists_table_assign (name : String) (path : List Step) (value old : Setting) :
    ∃ entries, assign value (.key name :: path) old = table entries := by
  cases path
  case nil       => rw [assign, merge_eq]; exact ⟨_, rfl⟩
  case cons step => rw [assign]; exact ⟨_, rfl⟩

theorem exists_table_mergeEntries (entry : String × Setting) (entries : List (String × Setting))
    (old : Setting) : ∃ merged, mergeEntries (entry :: entries) old = table merged := by
  rw [mergeEntries]
  induction entries generalizing entry old
  case nil             => exact exists_table_assign entry.1 [] entry.2 old
  case cons next _ ih  => exact ih next _

-- What a change makes of any old value: always the same, or a list, or a table that has a single
-- key only if it has that key alone.
inductive Change.Kind (change : Change) : Prop
  | same {value : Setting} : (∀ old, change.apply old = value) → Kind change
  | list : (∀ old, ∃ items, change.apply old = .list items) → Kind change
  | table : (∀ old, ∃ entries, change.apply old = .table entries) →
    (∀ old key, (change.apply old).keys = [key] → (change.apply nothing).keys = [key]) →
    Kind change

theorem Change.kind (h : change.isVoid = false) : change.Kind := by
  obtain ⟨path, value⟩ := change
  cases path
  case nil =>
    cases value
    case table entries =>
      cases entries
      case nil => cases h
      case cons entry entries =>
        refine .table (fun old => ?_) fun old key hk => ?_
        · exact exists_table_mergeEntries entry entries old
        · have hall := (keys_mergeEntries_eq_singleton.mp hk).1
          exact keys_mergeEntries_eq_singleton.mpr ⟨hall, .inl rfl⟩
    all_goals exact .same fun _ => rfl
  case cons step path =>
    cases step
    case index i => exact .list fun old => ⟨_, rfl⟩
    case key name =>
      refine .table (fun old => ?_) fun old key hk => ?_
      · exact exists_table_assign name path value old
      · have hn := (keys_assign_eq_singleton.mp hk).1
        exact keys_assign_eq_singleton.mpr ⟨hn, .inl rfl⟩

theorem choice?_table_eq_some_iff {names : List String} {entries : List (String × Setting)}
    {chosen : String} : choice? names (table entries) = some chosen ↔
      ∃ key, (table entries).keys = [key] ∧ choice?.named names key = some chosen := by
  unfold choice? keys
  match entries with
  | [] => simp [Setting.entries]
  | [(key, _)] => simp [Setting.entries]
  | _ :: _ :: _ => simp [Setting.entries]

-- What is read over an old value is read of the change alone.
def Overrides (read : Setting → Option α) : Prop :=
  ∀ change : Change, change.isVoid = false → ∀ old a,
    read (change.apply old) = some a → read (change.apply nothing) = some a

namespace Overrides

-- Where neither tables nor lists can be read, only single values are.
theorem of_single {read : Setting → Option α} (ht : ∀ entries, read (table entries) = none)
    (hl : ∀ items, read (list items) = none) : Overrides read := by
  intro change hv old a ha
  cases change.kind hv
  case same hs => rwa [hs] at ha ⊢
  case list hs =>
    obtain ⟨items, hs⟩ := hs old
    rw [hs, hl] at ha
    cases ha
  case table hs _ =>
    obtain ⟨entries, hs⟩ := hs old
    rw [hs, ht] at ha
    cases ha

-- Of a table only its key matters for a choice.
theorem choice (names : List String) : Overrides (choice? names) := by
  intro change hv old a ha
  cases change.kind hv
  case same hs => rwa [hs] at ha ⊢
  case list hs =>
    obtain ⟨items, hs⟩ := hs old
    rw [hs] at ha
    cases ha
  case table hs hkeys =>
    obtain ⟨entries, ho⟩ := hs old
    obtain ⟨alone, hn⟩ := hs nothing
    obtain ⟨key, hk, hc⟩ := choice?_table_eq_some_iff.mp (ho ▸ ha)
    have hk' := hkeys old key (ho ▸ hk)
    rw [hn] at hk' ⊢
    exact choice?_table_eq_some_iff.mpr ⟨key, hk', hc⟩

end Overrides

end DayNight.Setting
