import DayNight.Proofs.Config.View
import DayNight.Proofs.Setting.Conversion
import DayNight.Setting.Library

namespace DayNight.Setting

open Config (Field Sections find?_eq_some_of_forall sectionNames sections variableNames)
open Text (lowerKey)

variable {field : Field} {layer : List (String × Setting)} {value old root : Setting}
         {name text : String} {environment : List (String × String)}

-- What a layer sets a field to. A value below the field, or a table in its place, makes a table.
def settings (layer : List (String × Setting)) (part key : String) : List Setting :=
  (fieldChanges layer part key).map (·.apply nothing)

def view : library.View where
  settings := settings
  scalar := ofScalar
  parsed := variableValue

theorem converts : view.Converts where
  index n := by simp [library, format, view, ofScalar, device?, n.toNat_lt]
  path _ := rfl
  naturalBelow hn := by simp [library, format, view, ofScalar, naturalBelow?, natural?, hn]
  float _ := rfl
  flag _ := rfl
  text _ := rfl
  choice hm hn := find?_eq_some_of_forall hm (decide_eq_true rfl) fun other ho he =>
    hn other ho (of_decide_eq_true he)

theorem mem_of_lookup {α : Type} {key : String} {a : α} {entries : List (String × α)}
    (h : entries.lookup key = some a) : (key, a) ∈ entries := by
  obtain ⟨before, after, rfl, _⟩ := List.lookup_eq_some_iff.mp h
  exact List.mem_append_right _ List.mem_cons_self

theorem ofScalar_ne_table (scalar : Config.Scalar) (entries : List (String × Setting)) :
    ofScalar scalar ≠ table entries := by
  cases scalar <;> exact nofun

theorem isVoid_of_single (hv : ∀ entries, value ≠ table entries) :
    Change.isVoid ⟨[], value⟩ = false := by
  cases value
  case table entries => exact absurd rfl (hv entries)
  all_goals rfl

theorem apply_eq_of_single (hv : ∀ entries, value ≠ table entries) (old : Setting) :
    Change.apply ⟨[], value⟩ old = value := by
  cases value
  case table entries => exact absurd rfl (hv entries)
  all_goals rfl

theorem names : ∀ field ∈ Field.all,
    lowerKey field.part = field.part ∧ lowerKey field.key = field.key ∧
    '.' ∉ field.part.toList ∧ '[' ∉ field.part.toList ∧ '_' ∉ field.part.toList ∧
    dotted ['_', '_'] 0 field.key.toList = field.key.toList := by
  decide +kernel

theorem length_fieldChanges : ∀ field ∈ Field.all,
    (fieldChanges (sectionsLayer (sections {})) field.part field.key).length = 1 := by
  decide +kernel

theorem writes : view.Writes (sections {}) := by
  intro source h field hf
  obtain rfl := Option.some.inj h
  obtain ⟨scalar, he, _⟩ := Field.read_scalar? converts {} field hf
  obtain ⟨hpart, hkey, hd, hb, _⟩ := names field hf
  obtain ⟨fields, hs, hl⟩ := Option.bind_eq_some_iff.mp he
  have hv := ofScalar_ne_table scalar
  have hm : ⟨[], ofScalar scalar⟩ ∈
      fieldChanges (sectionsLayer (sections {})) field.part field.key :=
    mem_fieldChanges_of_table (List.mem_map_of_mem (mem_of_lookup hs)) hpart hd hb
      (List.mem_map_of_mem (mem_of_lookup hl)) hkey (isVoid_of_single hv)
  obtain ⟨change, hc⟩ := List.length_eq_one_iff.mp (length_fieldChanges field hf)
  rw [hc, List.mem_singleton] at hm
  have hset : settings (sectionsLayer (sections {})) field.part field.key = [ofScalar scalar] := by
    rw [settings, hc, ← hm, List.map_singleton, apply_eq_of_single hv]
  rw [he]
  exact hset

-- A variable sets no field but that for which it is named. Others could, as keys with points lead to
-- fields, and so do keys below that of a field.
def NamesPlainly (name : String) : Prop :=
  ∀ field ∈ Field.all, ∀ key ∈ variableKey? variableNames name,
    Change.below? field.part field.key ⟨(path? key).getD [.key key], nothing⟩ = none ∨
      lowerKey name = lowerKey (variableNames.name field.part field.key)

instance (name : String) : Decidable (NamesPlainly name) :=
  inferInstanceAs (Decidable (∀ field ∈ Field.all, ∀ key ∈ variableKey? variableNames name,
    Change.below? field.part field.key ⟨(path? key).getD [.key key], nothing⟩ = none ∨
      lowerKey name = lowerKey (variableNames.name field.part field.key)))

theorem variableValue_ne_table (text : String) (entries : List (String × Setting)) :
    variableValue text ≠ table entries := by
  dsimp only [variableValue]
  repeat' split
  all_goals exact nofun

theorem fieldChanges_append (lower upper : List (String × Setting)) (part key : String) :
    fieldChanges (lower ++ upper) part key =
      fieldChanges lower part key ++ fieldChanges upper part key := by
  simp [fieldChanges, layerChanges]

theorem layerChanges_of_single {key : String} (hv : ∀ entries, value ≠ table entries) :
    layerChanges [(key, value)] = [⟨(path? key).getD [.key key], value⟩] := by
  rw [layerChanges, List.flatMap_singleton, spread]
  exact fun _ entries _ he => hv entries he

-- Where a change leads does not depend on its value.
theorem below?_eq_none {part key : String} {path : List Step}
    (h : Change.below? part key ⟨path, old⟩ = none) :
    Change.below? part key ⟨path, value⟩ = none := by
  unfold Change.below? at h ⊢
  split
  case h_2 => rfl
  case h_1 heq =>
    obtain ⟨rfl, rfl⟩ := Change.mk.inj heq
    simpa using h

theorem lowerKey_append (a b : String) : lowerKey (a ++ b) = lowerKey a ++ lowerKey b := by
  simp [lowerKey]

theorem dotted_append {cs : List Char} (h : '_' ∉ cs) (rest : List Char) :
    dotted ['_', '_'] 0 (cs ++ '_' :: '_' :: rest) = cs ++ '.' :: dotted ['_', '_'] 0 rest := by
  induction cs
  case nil => rfl
  case cons c cs ih =>
    have ⟨hc, hcs⟩ := not_or.mp (fun he => h (List.mem_cons.mpr he))
    rw [List.cons_append, dotted, if_neg, ih hcs, List.cons_append]
    simp [hc]

theorem variableKey?_name (hf : field ∈ Field.all) :
    variableKey? variableNames (variableNames.name field.part field.key) =
      some (field.part ++ "." ++ field.key) := by
  obtain ⟨hpart, hkey, _, _, hu, hdotted⟩ := names field hf
  let start := (lowerKey (variableNames.start ++ variableNames.afterStart)).toList
  have hname : (lowerKey (variableNames.name field.part field.key)).toList =
      start ++ (field.part.toList ++ '_' :: '_' :: field.key.toList) := by
    have hbetween : (lowerKey variableNames.between).toList = ['_', '_'] := by decide
    rw [Config.VariableNames.name]
    simp only [lowerKey_append, hpart, hkey, String.toList_append, hbetween, start,
      List.append_assoc, List.cons_append, List.nil_append]
  have hprefix : start.isPrefixOf (lowerKey (variableNames.name field.part field.key)).toList := by
    rw [hname]
    exact List.isPrefixOf_iff_prefix.mpr (List.prefix_append ..)
  have hdot : dotted variableNames.between.toList 0
      (field.part.toList ++ '_' :: '_' :: field.key.toList) =
      field.part.toList ++ '.' :: field.key.toList := by
    have hd := dotted_append hu field.key.toList
    rw [hdotted] at hd
    exact hd
  rw [variableKey?, if_pos hprefix, hname, List.drop_left, hdot]
  refine congrArg some (String.toList_inj.mp ?_)
  simp [String.toList_append]

theorem path?_key : ∀ field ∈ Field.all, path? (field.part ++ "." ++ field.key) =
    some [.key field.part, .key field.key] := by
  decide +kernel

-- A variable is known by its name in any case.
theorem variableKey?_of_lowerKey {other : String} (h : lowerKey name = lowerKey other) :
    variableKey? variableNames name = variableKey? variableNames other := by
  unfold variableKey?
  rw [h]

theorem environmentLayer_cons (var : String × String) (environment : List (String × String)) :
    environmentLayer variableNames (var :: environment) =
      ((variableKey? variableNames var.1).map fun key => (key, variableValue var.2)).toList ++
        environmentLayer variableNames environment := by
  obtain ⟨name, text⟩ := var
  rw [environmentLayer, List.filterMap_cons]
  dsimp only
  cases variableKey? variableNames name <;> rfl

-- What the variable alone changes about the field.
theorem fieldChanges_variable (hf : field ∈ Field.all) (h : NamesPlainly name) :
    fieldChanges ((variableKey? variableNames name).map fun key =>
      (key, variableValue text)).toList field.part field.key =
      if lowerKey name = lowerKey (variableNames.name field.part field.key) then
        [⟨[], variableValue text⟩]
      else [] := by
  have hv := variableValue_ne_table text
  split
  case isTrue hn =>
    obtain ⟨hpart, hkey, _⟩ := names field hf
    rw [variableKey?_of_lowerKey hn, variableKey?_name hf, Option.map_some, Option.toList_some,
      fieldChanges, layerChanges_of_single hv, path?_key field hf]
    simp [Change.below?, hpart, hkey, isVoid_of_single hv]
  case isFalse hn =>
    cases hk : variableKey? variableNames name
    case none => rfl
    case some key =>
      have hb := (h field hf key hk).resolve_right hn
      rw [Option.map_some, Option.toList_some, fieldChanges, layerChanges_of_single hv,
        List.filterMap_cons_none (below?_eq_none hb)]
      rfl

theorem readsVariables (h : ∀ var ∈ environment, NamesPlainly var.1) :
    view.ReadsVariables environment := by
  intro field hf
  have hset : settings (environmentLayer variableNames environment) field.part field.key =
      (field.texts environment).map variableValue := by
    induction environment
    case nil => rfl
    case cons var environment ih =>
      have ⟨hvar, henv⟩ := List.forall_mem_cons.mp h
      have hv := variableValue_ne_table var.2
      have ih : (fieldChanges _ _ _).map _ = _ := ih henv
      rw [settings, environmentLayer_cons, fieldChanges_append, List.map_append, ih,
        fieldChanges_variable hf hvar, Field.texts, Field.texts, List.filter_cons]
      split
      case isTrue hn  => simp [hn, apply_eq_of_single hv]
      case isFalse hn => simp [hn]
  exact hset

theorem readsAs_apply {change : Change} (hv : change.isVoid = false) (old : Setting) :
    format.ReadsAs (change.apply old) (change.apply nothing) where
  device := Overrides.of_single (fun _ => rfl) (fun _ => rfl) change hv old
  naturalBelow _ := Overrides.of_single (fun _ => rfl) (fun _ => rfl) change hv old
  float := Overrides.of_single (fun _ => rfl) (fun _ => rfl) change hv old
  flag := Overrides.of_single (fun _ => rfl) (fun _ => rfl) change hv old
  text := Overrides.of_single (fun _ => rfl) (fun _ => rfl) change hv old
  choice names := Overrides.choice names change hv old

theorem HoldsField.format {part key : String} (h : root.HoldsField part key value) :
    format.HoldsField root part key value := by
  obtain ⟨_, ⟨sections, rfl, hs⟩, ⟨fields, rfl, hl⟩⟩ := h
  exact ⟨_, ⟨fun name => sections.lookup name, fun _ => rfl, hs⟩,
    ⟨fun name => fields.lookup name, fun _ => rfl, hl⟩⟩

-- What is read of a field is what is read of the last that was given for it.
def Merged (root : Setting) (field : Field) (given : List Setting) : Prop :=
  ∃ value last, given.getLast? = some last ∧ root.HoldsField field.part field.key value ∧
    format.ReadsAs value last

-- The section is merged, field by field.
def KeepsSections (layer : List (String × Setting)) : Prop :=
  ∀ part ∈ sectionNames, ∀ change ∈ layerChanges layer, change.replaces part = false

instance (layer : List (String × Setting)) : Decidable (KeepsSections layer) :=
  inferInstanceAs (Decidable (∀ part ∈ sectionNames, ∀ change ∈ layerChanges layer,
    change.replaces part = false))

theorem Merged.overlay {given : List Setting} (h : Merged root field given)
    (hf : field ∈ Field.all) (hl : KeepsSections layer)
    (hone : (settings layer field.part field.key).length ≤ 1) :
    Merged (root.overlay layer) field (given ++ settings layer field.part field.key) := by
  obtain ⟨value, last, hlast, hv, hr⟩ := h
  have hv := hv.overlay (hl field.part (Field.part_mem field hf))
  match hc : fieldChanges layer field.part field.key with
  | [] =>
    have hs : settings layer field.part field.key = [] := congrArg (List.map _) hc
    rw [hc] at hv
    rw [hs, List.append_nil]
    exact ⟨value, last, hlast, hv, hr⟩
  | [change] =>
    have hs : settings layer field.part field.key = [change.apply nothing] :=
      congrArg (List.map _) hc
    have hm : change ∈ fieldChanges layer field.part field.key := hc ▸ List.mem_singleton_self _
    have hvoid : change.isVoid = false := by simpa using (List.mem_filter.mp hm).2
    rw [hc] at hv
    rw [hs]
    exact ⟨_, _, List.getLast?_concat .., hv, readsAs_apply hvoid value⟩
  | _ :: _ :: _ =>
    have hs : settings layer field.part field.key = _ := congrArg (List.map _) hc
    rw [hs] at hone
    simp at hone

theorem Merged.foldl_overlay {given : List Setting} {layers : List (List (String × Setting))}
    (h : Merged root field given) (hf : field ∈ Field.all)
    (hl : ∀ layer ∈ layers, KeepsSections layer)
    (hone : ∀ layer ∈ layers, (settings layer field.part field.key).length ≤ 1) :
    Merged (layers.foldl Setting.overlay root) field
      (given ++ layers.flatMap fun layer => settings layer field.part field.key) := by
  induction layers generalizing root given
  case nil => simpa using h
  case cons layer layers ih =>
    obtain ⟨hlayer, hl⟩ := List.forall_mem_cons.mp hl
    obtain ⟨hfirst, hone⟩ := List.forall_mem_cons.mp hone
    have hm := ih (h.overlay hf hlayer hfirst) hl hone
    rw [List.append_assoc] at hm
    exact hm

theorem holdsField_sections : ∀ field ∈ Field.all, ∃ scalar,
    (sections {}).scalar? field.part field.key = some scalar ∧
      ((table []).overlay (sectionsLayer (sections {}))).HoldsField field.part field.key
        (ofScalar scalar) := by
  simp only [Field.all, Field.capture, Field.switcher, Field.pacing, Field.channels, Field.logging,
    List.cons_append, List.nil_append, List.forall_mem_cons]
  and_intros
  all_goals first
    | exact ⟨_, rfl, _, ⟨_, rfl, rfl⟩, ⟨_, rfl, rfl⟩⟩
    | exact List.forall_mem_nil _

-- Layers are merged by key unless they replace a section as a whole.
theorem mergesByKey {layers : List (List (String × Setting))}
    (h : ∀ layer ∈ layers, KeepsSections layer) :
    view.MergesByKey (sectionsLayer (sections {}) :: layers) := by
  intro merged hm field hf hone given hgiven
  obtain rfl := Option.some.inj hm
  obtain ⟨scalar, he, hd⟩ := holdsField_sections field hf
  have hs : settings (sectionsLayer (sections {})) field.part field.key = [ofScalar scalar] := by
    have hw := writes _ rfl field hf
    rw [he] at hw
    exact hw
  have hbase : Merged ((table []).overlay (sectionsLayer (sections {}))) field
      (settings (sectionsLayer (sections {})) field.part field.key) :=
    ⟨ofScalar scalar, ofScalar scalar, by rw [hs]; rfl, hd, .refl _⟩
  obtain ⟨value, last, hlast, hv, hr⟩ := hbase.foldl_overlay hf h fun layer hl =>
    hone layer (List.mem_cons_of_mem _ hl)
  obtain rfl := Option.some.inj (hlast.symm.trans hgiven)
  exact ⟨value, hv.format, hr⟩

end DayNight.Setting
