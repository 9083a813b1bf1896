import DayNight.Camera
import Mathlib.Data.List.DropRight

namespace DayNight

namespace Text

-- The text is `core` between blanks, and `core` itself neither begins nor ends with one.
structure Encloses (cs before core after : List Char) : Prop where
  parts  : cs = before ++ (core ++ after)
  before : ∀ c ∈ before, isBlank c
  after  : ∀ c ∈ after, isBlank c
  first  : ∀ c ∈ core.head?, ¬ isBlank c
  last   : ∀ c ∈ core.getLast?, ¬ isBlank c

def Reads (s name : String) : Prop :=
  ∃ before core after, Encloses s.toList before core after ∧ name.toList = core.map Char.toLower

variable {cs before core after : List Char}

theorem dropWhile_blanks (hb : ∀ c ∈ before, isBlank c) (hf : ∀ c ∈ core.head?, ¬ isBlank c) :
    (before ++ core).dropWhile isBlank = core := by
  rw [List.dropWhile_append_of_pos hb]
  cases core
  case nil => rfl
  case cons c core => exact List.dropWhile_cons_of_neg (hf c rfl)

theorem trimChars_of_encloses (h : Encloses cs before core after) : trimChars cs = core := by
  rw [trimChars, h.parts]
  cases hc : core
  case nil =>
    have hall : (before ++ after).dropWhile isBlank = [] := by
      rw [List.dropWhile_append_of_pos h.before]
      exact List.dropWhile_eq_nil_iff.mpr h.after
    rw [List.nil_append, hall]
    rfl
  case cons first rest =>
    have hf : ∀ c ∈ (core ++ after).head?, ¬ isBlank c := by
      have hf := h.first
      rw [hc] at hf ⊢
      exact hf
    have hl : ∀ c ∈ core.reverse.head?, ¬ isBlank c := List.head?_reverse.symm ▸ h.last
    have ha : ∀ c ∈ after.reverse, isBlank c := fun c hc => h.after c (List.mem_reverse.mp hc)
    rw [← hc, dropWhile_blanks h.before hf, List.reverse_append, dropWhile_blanks ha hl,
      List.reverse_reverse]

theorem trimChars_eq (cs : List Char) :
    trimChars cs = (cs.dropWhile isBlank).rdropWhile isBlank := rfl

theorem not_isBlank_of_head?_dropWhile {c : Char} (h : c ∈ (cs.dropWhile isBlank).head?) :
    ¬ isBlank c := by
  have hn := List.head?_dropWhile_not isBlank cs
  rw [Option.mem_def.mp h] at hn
  exact Bool.not_eq_true _ ▸ hn

theorem encloses_trimChars (cs : List Char) : Encloses cs (cs.takeWhile isBlank) (trimChars cs)
    ((cs.dropWhile isBlank).rtakeWhile isBlank) where
  parts := by
    rw [trimChars_eq, List.rdropWhile_append_rtakeWhile, List.takeWhile_append_dropWhile]
  before _ := List.mem_takeWhile_imp
  after _ := List.mem_rtakeWhile_imp
  first c hc := by
    rw [trimChars_eq] at hc
    obtain ⟨rest, hrest⟩ := List.rdropWhile_prefix isBlank (cs.dropWhile isBlank)
    have hc : c ∈ (cs.dropWhile isBlank).head? := by
      rw [← hrest, List.head?_append, Option.mem_def.mp hc]
      rfl
    exact not_isBlank_of_head?_dropWhile hc
  last _ hc := not_isBlank_of_head?_dropWhile (List.getLast?_reverse ▸ hc)

theorem reads_iff {s name : String} : Reads s name ↔ name = normalized s := by
  rw [normalized, lowerAscii, trim, String.toList_ofList, ← String.toList_inj, String.toList_ofList]
  constructor
  · rintro ⟨_, _, _, he, hn⟩
    rw [trimChars_of_encloses he, hn]
  · exact fun hn => ⟨_, _, _, encloses_trimChars s.toList, hn⟩

theorem Reads.unique {s name other : String} (h : Reads s name) (ho : Reads s other) :
    name = other :=
  (reads_iff.mp h).trans (reads_iff.mp ho).symm

-- What a text means among things with names: the thing whose name it reads as, if there is one.
inductive Means {α : Type} (name : α → String) (unknown : String → UnknownName) (s : String) :
    Except UnknownName α → Prop
  | known {a : α} : Reads s (name a) → Means name unknown s (.ok a)
  | unknown {got : String} : Reads s got → (∀ a, got ≠ name a) →
    Means name unknown s (.error (unknown got))

section

variable {α : Type} {name : α → String} {unknown : String → UnknownName} {s : String} {a b : α}

-- One who compares a text with the names of two things, the only ones there are, finds its meaning.
theorem means_choice {first second : String} (ha : name a = first) (hb : name b = second)
    (hall : ∀ x, x = a ∨ x = b) : Means name unknown s
    (if normalized s = first then .ok a else if normalized s = second then .ok b
      else .error (unknown (normalized s))) := by
  have hr : Reads s (normalized s) := reads_iff.mpr rfl
  split
  case isTrue hf => exact .known (ha.trans hf.symm ▸ hr)
  case isFalse hf =>
    split
    case isTrue hs => exact .known (hb.trans hs.symm ▸ hr)
    case isFalse hs =>
      refine .unknown hr fun x => ?_
      obtain rfl | rfl := hall x
      · exact ha ▸ hf
      · exact hb ▸ hs

-- A text means one thing only.
theorem Means.eq_iff {result other : Except UnknownName α} (hn : Function.Injective name)
    (h : Means name unknown s result) : result = other ↔ Means name unknown s other := by
  refine ⟨fun he => he ▸ h, fun ho => ?_⟩
  cases h
  case known hr =>
    cases ho
    case known ho      => rw [hn (hr.unique ho)]
    case unknown ho hx => exact absurd (ho.unique hr) (hx _)
  case unknown hr hx =>
    cases ho
    case known ho     => exact absurd (hr.unique ho) (hx _)
    case unknown ho _ => rw [hr.unique ho]

end

end Text

open Text

variable {s : String}

namespace Camera

theorem name_injective : Function.Injective name := by
  intro a b
  cases a <;> cases b <;> decide

theorem means_parse (s : String) : Means name .camera s (parse s) := by
  dsimp only [parse]
  exact means_choice (a := day) (b := night) rfl rfl fun c => by cases c <;> simp

theorem parse_eq_iff {result : Except UnknownName Camera} :
    parse s = result ↔ Means name .camera s result :=
  (means_parse s).eq_iff name_injective

end Camera

namespace ControlMode

theorem name_injective : Function.Injective name := by
  intro a b
  cases a <;> cases b <;> decide

theorem means_parse (s : String) : Means name .mode s (parse s) := by
  dsimp only [parse]
  exact means_choice (a := auto) (b := manual) rfl rfl fun m => by cases m <;> simp

theorem parse_eq_iff {result : Except UnknownName ControlMode} :
    parse s = result ↔ Means name .mode s result :=
  (means_parse s).eq_iff name_injective

end ControlMode

end DayNight
