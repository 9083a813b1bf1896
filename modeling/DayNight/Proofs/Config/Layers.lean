import DayNight.Proofs.Config.View
import DayNight.Proofs.Setting.Library
import Mathlib.Data.List.Flatten

namespace DayNight.Config

open Library (View)

variable {library : Library} {view : library.View} {file : File} {field : Field} {config : Config}
         {environment : List (String × String)} {sources : List library.Source}

-- What the file sets the field to.
def Field.named (field : Field) (view : library.View) (file : File) : List library.Value :=
  ((file.sources? library).getD []).flatMap fun source =>
    view.settings source field.part field.key

-- What is set for the field above the default.
def Field.given? (field : Field) (view : library.View) (file : File)
    (environment : List (String × String)) : Option library.Value :=
  ((field.texts environment).head?.map view.parsed).or (field.named view file).head?

-- What the layers make of the field.
def Field.chosen? (field : Field) (view : library.View) (file : File)
    (environment : List (String × String)) : Option field.Value :=
  match field.given? view file environment with
  | some given => field.read library.format given
  | none => some (field.get {})

structure SetOnce (view : library.View) (file : File) (environment : List (String × String)) :
    Prop where
  named : ∀ field ∈ Field.all, (field.named view file).length ≤ 1
  texts : ∀ field ∈ Field.all, (field.texts environment).length ≤ 1

-- The library treats these layers as it says.
structure Documented (view : library.View) (file : File) (environment : List (String × String)) :
    Prop where
  converts : view.Converts
  writes   : view.Writes (sections {})
  reads    : view.ReadsVariables environment
  merges   : ∀ sources, sources? library file environment = some sources →
    view.MergesByKey sources

theorem getLast?_layers {α : Type} (base : α) {lower upper : List α} (hl : lower.length ≤ 1)
    (hu : upper.length ≤ 1) :
    (base :: (lower ++ upper)).getLast? = some ((upper.head?.or lower.head?).getD base) := by
  match lower, upper with
  | [], [] => rfl
  | [], [_] => rfl
  | [_], [] => rfl
  | [_], [_] => rfl
  | _ :: _ :: _, _ => simp at hl
  | _, _ :: _ :: _ => simp at hu

theorem exists_sources (h : sources? library file environment = some sources) :
    ∃ defaults named, library.written (sections {}) = some defaults ∧
      file.sources? library = some named ∧
      sources = defaults :: named ++ [library.environment variableNames environment] := by
  obtain ⟨defaults, hd, h⟩ := Option.bind_eq_some_iff.mp h
  obtain ⟨named, hn, h⟩ := Option.bind_eq_some_iff.mp h
  exact ⟨defaults, named, hd, hn, (Option.some.inj h).symm⟩

namespace Documented

-- What the sources set a field to, one after the other.
theorem settings_eq (h : Documented view file environment)
    (hs : sources? library file environment = some sources) (hf : field ∈ Field.all) :
    ∃ default, field.read library.format default = some (field.get {}) ∧
      (sources.flatMap fun source => view.settings source field.part field.key) =
        default :: (field.named view file ++ (field.texts environment).map view.parsed) := by
  obtain ⟨defaults, named, hd, hn, rfl⟩ := exists_sources hs
  obtain ⟨scalar, he, hr⟩ := Field.read_scalar? h.converts {} field hf
  refine ⟨view.scalar scalar, hr, ?_⟩
  rw [List.cons_append, List.flatMap_cons, List.flatMap_append, List.flatMap_singleton,
    h.writes defaults hd field hf, h.reads field hf, he, Field.named, hn]
  rfl

theorem length_settings (h : Documented view file environment)
    (hone : SetOnce view file environment)
    (hs : sources? library file environment = some sources) (hf : field ∈ Field.all) :
    ∀ source ∈ sources, (view.settings source field.part field.key).length ≤ 1 := by
  obtain ⟨defaults, named, hd, hn, rfl⟩ := exists_sources hs
  have hnamed := hone.named field hf
  rw [Field.named, hn, Option.getD_some] at hnamed
  have htexts := hone.texts field hf
  rw [List.cons_append, List.forall_mem_cons, List.forall_mem_append, List.forall_mem_singleton,
    h.writes defaults hd field hf, h.reads field hf, List.length_map]
  refine ⟨?_, fun source hm => ?_, htexts⟩
  · cases (sections {}).scalar? field.part field.key <;> simp
  · have hsub := (List.singleton_sublist.mpr hm).flatMap fun source =>
      view.settings source field.part field.key
    rw [List.flatMap_singleton] at hsub
    exact Nat.le_trans hsub.length_le hnamed

-- If all can be read together, each field is what was chosen for it.
theorem chosen? (h : Documented view file environment) (hone : SetOnce view file environment)
    (hc : converted? library file environment = some config) (hf : field ∈ Field.all) :
    field.chosen? view file environment = some (field.get config) := by
  obtain ⟨sources, hs, hc⟩ := Option.bind_eq_some_iff.mp hc
  obtain ⟨merged, hb, hr⟩ := Option.bind_eq_some_iff.mp hc
  obtain ⟨default, hd, hsettings⟩ := h.settings_eq hs hf
  have htexts : ((field.texts environment).map view.parsed).length ≤ 1 := by
    rw [List.length_map]
    exact hone.texts field hf
  have hlast := getLast?_layers default (hone.named field hf) htexts
  obtain ⟨value, hv, hread⟩ := h.merges sources hs merged hb field hf
    (h.length_settings hone hs hf) _ (hsettings ▸ hlast)
  have hvalue := Field.read_of_readsAs hread field hf _ (Field.read_of_holds hr hf hv)
  rw [List.head?_map] at hvalue
  unfold Field.chosen? Field.given?
  split
  case h_1 given hg => rwa [hg] at hvalue
  case h_2 hg =>
    rw [hg] at hvalue
    exact hd.symm.trans hvalue

end Documented

theorem load_of_converted? (h : converted? library file environment = some config) :
    load library file environment =
      match config.validate with
      | .ok () => .ok config
      | .error fault => .error (.invalid fault) := by
  rw [load, h]
  dsimp only
  cases config.validate <;> rfl

theorem of_load_eq_ok (h : load library file environment = .ok config) :
    converted? library file environment = some config ∧ config.validate = .ok () := by
  cases hc : converted? library file environment
  case none =>
    rw [load, hc] at h
    cases h
  case some c =>
    rw [load_of_converted? hc] at h
    cases hv : c.validate
    case error => rw [hv] at h; cases h
    case ok =>
      rw [hv] at h
      cases h
      exact ⟨rfl, hv⟩

-- Where no layer sets a field twice, every field of a loaded configuration is what its variable
-- says, else what the file says, and else the default, whatever is set of other fields; and the
-- configuration is valid. If the layers can be read together and a rule is broken, the fault is
-- reported.
theorem fields_of_layers (h : Documented view file environment)
    (hone : SetOnce view file environment) :
    (∀ config, load library file environment = .ok config → config.validate = .ok () ∧
      ∀ field ∈ Field.all, field.chosen? view file environment = some (field.get config)) ∧
    (∀ config, converted? library file environment = some config →
      load library file environment =
        match config.validate with
        | .ok () => .ok config
        | .error fault => .error (.invalid fault)) ∧
    ∀ other others, Documented view other others → SetOnce view other others →
      ∀ config changed, load library file environment = .ok config →
        load library other others = .ok changed →
      ∀ field ∈ Field.all, field.named view other = field.named view file →
        field.texts others = field.texts environment →
        field.get changed = field.get config := by
  refine ⟨fun config hl => ⟨(of_load_eq_ok hl).2, fun field hf =>
    h.chosen? hone (of_load_eq_ok hl).1 hf⟩, fun config => load_of_converted?, ?_⟩
  intro other others hOther honeOther config changed hl hlOther field hf hnamed htexts
  have hc := h.chosen? hone (of_load_eq_ok hl).1 hf
  have hcOther := hOther.chosen? honeOther (of_load_eq_ok hlOther).1 hf
  rw [Field.chosen?, Field.given?, hnamed, htexts] at hcOther
  exact Option.some.inj (hcOther.symm.trans hc)

theorem exists_load_of_map {α : Type} {g : Config → α} {a : α}
    (h : (load library file environment).toOption.map g = some a) :
    ∃ config, load library file environment = .ok config ∧ g config = a := by
  cases hl : load library file environment
  case error => rw [hl] at h; cases h
  case ok config =>
    rw [hl] at h
    exact ⟨config, rfl, Option.some.inj h⟩

-- The library of the program treats layers as it says that leave the sections in place.
theorem documented_of_keepsSections {text : String} {layer : List (String × Setting)}
    (hl : Toml.document? text = some layer) (hfile : Setting.KeepsSections layer)
    (hnames : ∀ var ∈ environment, Setting.NamesPlainly var.1)
    (henv : Setting.KeepsSections (Setting.environmentLayer variableNames environment)) :
    Documented Setting.view (.contents text) environment where
  converts := Setting.converts
  writes := Setting.writes
  reads := Setting.readsVariables hnames
  merges sources hs := by
    obtain ⟨_, named, hd, hn, rfl⟩ := exists_sources hs
    obtain rfl := Option.some.inj hd
    obtain rfl := Option.some.inj ((congrArg (Option.map _) hl).symm.trans hn)
    exact Setting.mergesByKey (List.forall_mem_cons.mpr ⟨hfile, List.forall_mem_singleton.mpr henv⟩)

-- An index makes a list of the section, and what the file has set is lost.
example : (load Setting.library (.contents "[capture]\nfps = 5\n")
    [("PETCAM__CAPTURE[0]", "3")]).toOption.map (·.capture.framesPerSecond) = some 30 := by
  decide +kernel

theorem variable_over_file :
    let file : File := .contents "[capture]\nfps = 50\nwidth = 10\n"
    let environment := [("petcam__Capture__FPS", "60")]
    ∃ config, Documented Setting.view file environment ∧ SetOnce Setting.view file environment ∧
      load Setting.library file environment = .ok config ∧ config.validate = .ok () ∧
      config.capture.framesPerSecond = 60 ∧ config.capture.width = 10 ∧
      config.capture.height = 720 := by
  intro file environment
  have hload : (load Setting.library file environment).toOption.map (fun _ => ()) = some () := by
    decide +kernel
  have hlayer : (Toml.document? "[capture]\nfps = 50\nwidth = 10\n").map
      (fun layer => decide (Setting.KeepsSections layer)) = some true := by decide +kernel
  have henv : Setting.KeepsSections (Setting.environmentLayer variableNames environment) := by
    decide +kernel
  have hone : SetOnce Setting.view file environment := ⟨by decide +kernel, by decide +kernel⟩
  have hnames : ∀ var ∈ environment, Setting.NamesPlainly var.1 := by decide +kernel
  let chosen (i : Fin 28) := (Field.all[i]).chosen? Setting.view file environment
  let number : Option UInt32 → Option Nat := Option.map UInt32.toNat
  have hfps : number (chosen 4) = some 60 := by decide +kernel
  have hwidth : number (chosen 2) = some 10 := by decide +kernel
  have hheight : number (chosen 3) = some 720 := by decide +kernel
  obtain ⟨layer, hl, hfile⟩ := Option.map_eq_some_iff.mp hlayer
  have hdoc : Documented Setting.view file environment :=
    documented_of_keepsSections hl (of_decide_eq_true hfile) hnames henv
  obtain ⟨config, hc, _⟩ := exists_load_of_map hload
  have ⟨hvalid, hfields⟩ := (fields_of_layers hdoc hone).1 config hc
  have hchosen (i : Fin 28) := hfields (Field.all[i]) (List.getElem_mem _)
  have hword {n : UInt32} {m : Nat} {chosen : Option UInt32} (hc : chosen = some n)
      (hm : number chosen = some m) : n.toNat = m :=
    Option.some.inj ((congrArg number hc).symm.trans hm)
  refine ⟨config, hdoc, hone, hc, hvalid, ?_, ?_, ?_⟩
  · exact UInt32.toNat_inj.mp (hword (hchosen 4) hfps)
  · exact UInt32.toNat_inj.mp (hword (hchosen 2) hwidth)
  · exact UInt32.toNat_inj.mp (hword (hchosen 3) hheight)

end DayNight.Config
