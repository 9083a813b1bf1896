import DayNight.Proofs.Setting.Merging

namespace DayNight.Setting

open Text (lowerKey)

variable {part key name : String} {value old root fields : Setting} {path : List Step}
         {layer : List (String × Setting)}

-- The changes that a value on a path stands for; those of a table are one for each of its entries.
def spread (path : List Step) (value : Setting) : List Change :=
  match path, value with
  | [.key name], table entries => entries.map fun entry => ⟨[.key name, .key entry.1], entry.2⟩
  | path, value => [⟨path, value⟩]

namespace Change

-- The whole section is replaced, by a single value or by a list.
def replaces (part : String) : Change → Bool
  | ⟨[.key p], _⟩ => lowerKey p = part
  | ⟨.key p :: .index _ :: _, _⟩ => lowerKey p = part
  | _ => false

-- The change as the field sees it.
def below? (part key : String) : Change → Option Change
  | ⟨.key p :: .key k :: path, value⟩ =>
    if lowerKey p = part ∧ lowerKey k = key then some ⟨path, value⟩ else none
  | _ => none

-- An empty table changes nothing.
def isVoid : Change → Bool
  | ⟨[], table []⟩ => true
  | _ => false

end Change

def layerChanges (layer : List (String × Setting)) : List Change :=
  layer.flatMap fun entry => spread ((path? entry.1).getD [.key entry.1]) entry.2

def applyAll (changes : List Change) (old : Setting) : Setting :=
  changes.foldl (fun old change => change.apply old) old

-- What a layer changes about one field, in the order of the layer.
def fieldChanges (layer : List (String × Setting)) (part key : String) : List Change :=
  ((layerChanges layer).filterMap (·.below? part key)).filter fun change => ¬ change.isVoid

theorem applyAll_cons {change : Change} {changes : List Change} :
    applyAll (change :: changes) old = applyAll changes (change.apply old) :=
  rfl

theorem Change.apply_of_isVoid {change : Change} (h : change.isVoid) :
    change.apply old = old := by
  unfold Change.isVoid at h
  split at h
  case h_1 => rw [apply, put, Setting.mergeEntries]
  case h_2 => cases h

theorem applyAll_filter (changes : List Change) (old : Setting) :
    applyAll (changes.filter fun change => ¬ change.isVoid) old = applyAll changes old := by
  induction changes generalizing old
  case nil => rfl
  case cons change changes ih =>
    rw [applyAll_cons, List.filter_cons]
    split
    case isTrue h  => exact ih _
    case isFalse h =>
      have hv : change.isVoid := by simpa using h
      rw [Change.apply_of_isVoid hv, ih]

-- The entries of a table change what is under their keys.
theorem Holds.mergeEntries (h : fields.Holds key old) (entries : List (String × Setting)) :
    (mergeEntries entries fields).Holds key (applyAll (entries.filterMap fun entry =>
      if lowerKey entry.1 = key then some ⟨[], entry.2⟩ else none) old) := by
  induction entries generalizing fields old
  case nil => exact h
  case cons entry entries ih =>
    have hs := ih (h.assign entry.1 [] entry.2)
    rw [Setting.mergeEntries, List.filterMap_cons]
    by_cases hk : lowerKey entry.1 = key
    case pos =>
      rw [if_pos hk.symm] at hs
      rw [if_pos hk]
      exact hs
    case neg =>
      rw [if_neg (Ne.symm hk)] at hs
      rw [if_neg hk]
      exact hs

theorem exists_path? {path : List Step} (h : path? key = some path) :
    ∃ name rest, path = .key name :: rest := by
  unfold path? at h
  obtain ⟨⟨name, rest⟩, _, h⟩ := Option.bind_eq_some_iff.mp h
  obtain ⟨others, _, h⟩ := Option.bind_eq_some_iff.mp h
  exact ⟨name, others, (Option.some.inj h).symm⟩

-- A path begins with a name.
theorem exists_getD_path? (key : String) :
    ∃ name rest, (path? key).getD [.key key] = .key name :: rest := by
  cases h : path? key
  case none      => exact ⟨key, [], rfl⟩
  case some path => exact exists_path? h

-- The field of that name in the section of that name.
def HoldsField (root : Setting) (part key : String) (value : Setting) : Prop :=
  ∃ fields, root.Holds part fields ∧ fields.Holds key value

namespace HoldsField

-- The section of another name is left alone.
theorem assign_of_ne (h : root.HoldsField part key old)
    (hn : part ≠ lowerKey name) :
    (assign value (.key name :: path) root).HoldsField part key old := by
  obtain ⟨fields, hr, hf⟩ := h
  have hroot := hr.assign name path value
  rw [if_neg hn] at hroot
  exact ⟨fields, hroot, hf⟩

theorem assign_field {field : String} (h : root.HoldsField part key old) :
    (assign value (.key name :: .key field :: path) root).HoldsField part key
      (if lowerKey name = part ∧ lowerKey field = key then Change.apply ⟨path, value⟩ old
        else old) := by
  by_cases hn : part = lowerKey name
  case neg =>
    rw [if_neg fun he => hn he.1.symm]
    exact h.assign_of_ne hn
  case pos =>
    obtain ⟨fields, hr, hf⟩ := h
    have hroot := hr.assign name (.key field :: path) value
    have hfield := hf.assign field path value
    have hsame : lowerKey name = part ∧ lowerKey field = key ↔ key = lowerKey field :=
      ⟨fun h => h.2.symm, fun h => ⟨hn.symm, h.symm⟩⟩
    rw [if_pos hn] at hroot
    simp only [hsame]
    exact ⟨_, hroot, hfield⟩

-- Either the change is about the field, or the field keeps its value.
theorem assign (h : root.HoldsField part key old)
    (hp : Change.replaces part ⟨.key name :: path, value⟩ = false) :
    (Setting.assign value (.key name :: path) root).HoldsField part key
      (applyAll ([⟨.key name :: path, value⟩].filterMap (Change.below? part key)) old) := by
  cases path
  case nil => exact h.assign_of_ne (Ne.symm (of_decide_eq_false hp))
  case cons step path =>
    cases step
    case index i => exact h.assign_of_ne (Ne.symm (of_decide_eq_false hp))
    case key field =>
      let assigned := Setting.assign value (.key name :: .key field :: path) root
      have hf : assigned.HoldsField part key _ := h.assign_field
      rw [List.filterMap_cons, Change.below?]
      split at hf
      case isTrue hc  => simpa [hc, applyAll] using hf
      case isFalse hc => simpa [hc, applyAll] using hf

-- A section that is set as a table is merged into what there is.
theorem mergeSection (h : root.HoldsField part key old) (name : String)
    (entries : List (String × Setting)) :
    (merge name (table entries) root).HoldsField part key
      (applyAll ((spread [.key name] (table entries)).filterMap (Change.below? part key)) old) := by
  simp only [spread, List.filterMap_map, Function.comp_def, Change.below?]
  by_cases hn : part = lowerKey name
  case neg =>
    simp only [Ne.symm hn, false_and, if_false]
    rw [List.filterMap_eq_nil_iff.mpr fun _ _ => rfl]
    change (Setting.assign (table entries) [.key name] root).HoldsField part key old
    exact h.assign_of_ne hn
  case pos =>
    obtain ⟨fields, hr, hf⟩ := h
    have hroot := hr.assign name [] (table entries)
    rw [if_pos hn] at hroot
    simp only [hn.symm, true_and]
    exact ⟨_, hroot, hf.mergeEntries entries⟩

theorem assignPath (h : root.HoldsField part key old)
    (hp : ∀ change ∈ spread (.key name :: path) value, change.replaces part = false) :
    (Setting.assign value (.key name :: path) root).HoldsField part key
      (applyAll ((spread (.key name :: path) value).filterMap (Change.below? part key)) old) := by
  unfold spread at hp ⊢
  split at hp
  case h_1 entries hn =>
    obtain ⟨rfl, rfl⟩ := hn
    exact h.mergeSection name entries
  case h_2 hn => exact h.assign (hp _ (List.mem_singleton_self _))

theorem overlay_changes (h : root.HoldsField part key old)
    (hp : ∀ change ∈ layerChanges layer, change.replaces part = false) :
    (overlay root layer).HoldsField part key
      (applyAll ((layerChanges layer).filterMap (Change.below? part key)) old) := by
  induction layer generalizing root old
  case nil => exact h
  case cons entry layer ih =>
    obtain ⟨name, path, hpath⟩ := exists_getD_path? entry.1
    rw [layerChanges, List.flatMap_cons, List.forall_mem_append] at hp
    rw [layerChanges, List.flatMap_cons, List.filterMap_append, applyAll, List.foldl_append]
    refine ih ?_ hp.2
    rw [hpath] at hp ⊢
    dsimp only
    rw [assignKey, hpath]
    exact h.assignPath hp.1

theorem overlay (h : root.HoldsField part key old)
    (hp : ∀ change ∈ layerChanges layer, change.replaces part = false) :
    (overlay root layer).HoldsField part key (applyAll (fieldChanges layer part key) old) := by
  rw [fieldChanges, applyAll_filter]
  exact h.overlay_changes hp

end HoldsField

-- A key without points and brackets names itself.
theorem getD_path?_of_notMem (hd : '.' ∉ key.toList) (hb : '[' ∉ key.toList) :
    (path? key).getD [.key key] = [.key key] := by
  have happ := List.takeWhile_append_dropWhile (p := isNameChar) (l := key.toList)
  unfold path? name?
  split
  case h_1 => rfl
  case h_2 name hname =>
    cases hrest : key.toList.dropWhile isNameChar
    case nil =>
      rw [hrest, List.append_nil] at happ
      simp [steps?, happ]
    case cons c rest =>
      have hc : c ∈ key.toList := happ ▸ hrest ▸ List.mem_append_right _ List.mem_cons_self
      have hnd : c ≠ '.' := fun h => hd (h ▸ hc)
      have hnb : c ≠ '[' := fun h => hb (h ▸ hc)
      simp [steps?, hnd, hnb]

theorem mem_lowerKey {c : Char} (h : c ∈ key.toList) :
    (if c.toNat = 0x212A then 'k' else c.toLower) ∈ (lowerKey key).toList := by
  rw [lowerKey, String.toList_ofList]
  exact List.mem_map_of_mem h

-- The name of a section has no points or brackets, in any case.
theorem getD_path?_of_lowerKey (hk : lowerKey key = part) (hd : '.' ∉ part.toList)
    (hb : '[' ∉ part.toList) : (path? key).getD [.key key] = [.key key] :=
  getD_path?_of_notMem (fun h => hd (hk ▸ mem_lowerKey h)) fun h => hb (hk ▸ mem_lowerKey h)

theorem mem_fieldChanges {change : Change} (h : change ∈ layerChanges layer) {p k : String}
    (hp : change.path = [.key p, .key k]) (hpart : lowerKey p = part) (hkey : lowerKey k = key)
    (hv : Change.isVoid ⟨[], change.value⟩ = false) :
    ⟨[], change.value⟩ ∈ fieldChanges layer part key := by
  obtain ⟨path, value⟩ := change
  obtain rfl : path = _ := hp
  refine List.mem_filter.mpr ⟨List.mem_filterMap.mpr ⟨_, h, ?_⟩, by simpa using hv⟩
  rw [Change.below?, if_pos ⟨hpart, hkey⟩]

-- An entry of a table that stands for the section.
theorem mem_fieldChanges_of_table {entries : List (String × Setting)}
    (hs : (name, table entries) ∈ layer) (hpart : lowerKey name = part) (hd : '.' ∉ part.toList)
    (hb : '[' ∉ part.toList) {k : String} (he : (k, value) ∈ entries) (hkey : lowerKey k = key)
    (hv : Change.isVoid ⟨[], value⟩ = false) : ⟨[], value⟩ ∈ fieldChanges layer part key := by
  have hc : ⟨[.key name, .key k], value⟩ ∈ layerChanges layer := by
    refine List.mem_flatMap.mpr ⟨_, hs, ?_⟩
    rw [getD_path?_of_lowerKey hpart hd hb]
    exact List.mem_map_of_mem he
  exact mem_fieldChanges hc rfl hpart hkey hv

end DayNight.Setting
