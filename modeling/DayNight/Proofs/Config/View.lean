import DayNight.Proofs.Config.Fields

namespace DayNight.Config

open Text (lowerKey)

def Sections.scalar? (sections : Sections) (part key : String) : Option Scalar :=
  (sections.lookup part).bind fun fields => fields.lookup key

-- The texts of the variables that are named for the field, in any case.
def Field.texts (field : Field) (environment : List (String × String)) : List String :=
  (environment.filter fun var =>
    lowerKey var.1 = lowerKey (variableNames.name field.part field.key)).map (·.2)

theorem find?_eq_some_of_forall {α : Type} {p : α → Bool} {as : List α} {a : α} (ha : a ∈ as)
    (hp : p a) (h : ∀ b ∈ as, p b → b = a) : as.find? p = some a := by
  cases hf : as.find? p
  case none   => exact absurd hp (List.find?_eq_none.mp hf a ha)
  case some b => rw [h b (List.mem_of_find?_eq_some hf) (List.find?_some hf)]

namespace Library

-- What can be said of the sources and values of a library.
structure View (library : Library) where
  -- What a source sets a key of a section to, in its order.
  settings : library.Source → (part key : String) → List library.Value
  scalar   : Scalar → library.Value
  -- What the text of a variable stands for.
  parsed   : String → library.Value

namespace View

variable {library : Library} (view : library.View)

-- Scalars convert to what they were, and the name of a choice to itself if it is like no other.
structure Converts : Prop where
  index (n : UInt32) :
    library.format.device (view.scalar (.natural n.toNat)) = some (.index n)
  path (p : String) : library.format.device (view.scalar (.text p)) = some (.path p)
  naturalBelow {bound n : Nat} : n < bound →
    library.format.naturalBelow bound (view.scalar (.natural n)) = some n
  float (x : Float) : library.format.float (view.scalar (.float x)) = some x
  flag (b : Bool) : library.format.flag (view.scalar (.flag b)) = some b
  text (s : String) : library.format.text (view.scalar (.text s)) = some s
  choice {names : List String} {name : String} : name ∈ names →
    (∀ other ∈ names, lowerKey other = lowerKey name → other = name) →
    library.format.choice names (view.scalar (.text name)) = some name

-- Sections become a source that sets each field to what is written for it.
def Writes (sections : Sections) : Prop :=
  ∀ source, library.written sections = some source → ∀ field ∈ Field.all,
    view.settings source field.part field.key =
      ((sections.scalar? field.part field.key).map view.scalar).toList

-- A field is set by the variables that are named for it.
def ReadsVariables (environment : List (String × String)) : Prop :=
  ∀ field ∈ Field.all,
    view.settings (library.environment variableNames environment) field.part field.key =
      (field.texts environment).map view.parsed

-- A field that no source sets twice is what the last source sets it to that does.
def MergesByKey (sources : List library.Source) : Prop :=
  ∀ merged, library.build sources = some merged → ∀ field ∈ Field.all,
    (∀ source ∈ sources, (view.settings source field.part field.key).length ≤ 1) →
    ∀ given,
      (sources.flatMap fun source => view.settings source field.part field.key).getLast? =
        some given →
      ∃ value, library.format.HoldsField merged field.part field.key value ∧
        library.format.ReadsAs value given

end View

end Library

namespace Field

variable {library : Library} {view : library.View}

theorem oneOf_scalar {α : Type} {all : List α} {name : α → String} {a : α} (h : view.Converts)
    (ha : a ∈ all) (hn : ∀ b ∈ all, lowerKey (name b) = lowerKey (name a) → b = a) :
    library.format.oneOf all name (view.scalar (.text (name a))) = some a := by
  have hc := h.choice (List.mem_map_of_mem (f := name) ha) fun other ho he => by
    obtain ⟨b, hb, rfl⟩ := List.mem_map.mp ho
    rw [hn b hb he]
  rw [Format.oneOf, hc, Option.bind_eq_bind, Option.bind_some]
  exact find?_eq_some_of_forall ha (decide_eq_true rfl) fun b hb he =>
    hn b hb (congrArg lowerKey (of_decide_eq_true he))

theorem word32_scalar (h : view.Converts) (n : UInt32) :
    library.format.word32 (view.scalar (.word32 n)) = some n := by
  rw [Format.word32, Scalar.word32, h.naturalBelow n.toNat_lt, Option.map_some, UInt32.ofNat_toNat]

theorem word64_scalar (h : view.Converts) (n : UInt64) :
    library.format.word64 (view.scalar (.word64 n)) = some n := by
  rw [Format.word64, Scalar.word64, h.naturalBelow n.toNat_lt, Option.map_some, UInt64.ofNat_toNat]

theorem device_scalar (h : view.Converts) (d : Device) :
    library.format.device (view.scalar (.device d)) = some d := by
  cases d
  case index n => exact h.index n
  case path p  => exact h.path p

theorem camera_scalar (h : view.Converts) (c : Camera) :
    library.format.camera (view.scalar (.text c.name)) = some c :=
  oneOf_scalar h (by cases c <;> decide) (by cases c <;> decide)

theorem mode_scalar (h : view.Converts) (m : ControlMode) :
    library.format.mode (view.scalar (.text m.name)) = some m :=
  oneOf_scalar h (by cases m <;> decide) (by cases m <;> decide)

theorem pixelFormat_scalar (h : view.Converts) (p : PixelFormat) :
    library.format.pixelFormat (view.scalar (.text p.name)) = some p :=
  oneOf_scalar h (by cases p <;> decide) (by cases p <;> decide)

theorem storage_scalar (h : view.Converts) (s : Storage) :
    library.format.storage (view.scalar (.text s.name)) = some s :=
  oneOf_scalar h (by cases s <;> decide) (by cases s <;> decide)

-- What is written for a field is converted to what the field was.
theorem read_scalar? (h : view.Converts) (config : Config) : ∀ field ∈ all, ∃ scalar,
    (sections config).scalar? field.part field.key = some scalar ∧
      field.read library.format (view.scalar scalar) = some (field.get config) := by
  simp only [all, capture, switcher, pacing, channels, logging, List.cons_append, List.nil_append,
    List.forall_mem_cons]
  and_intros
  all_goals first
    | exact ⟨_, rfl, device_scalar h _⟩
    | exact ⟨_, rfl, word32_scalar h _⟩
    | exact ⟨_, rfl, word64_scalar h _⟩
    | exact ⟨_, rfl, pixelFormat_scalar h _⟩
    | exact ⟨_, rfl, camera_scalar h _⟩
    | exact ⟨_, rfl, mode_scalar h _⟩
    | exact ⟨_, rfl, storage_scalar h _⟩
    | exact ⟨_, rfl, h.float _⟩
    | exact ⟨_, rfl, h.text _⟩
    | exact ⟨_, rfl, h.flag _⟩
    | exact List.forall_mem_nil _

end Field

end DayNight.Config
