import DayNight.Text.Blank

namespace DayNight

inductive Camera
  | day
  | night
  deriving DecidableEq, Repr, Inhabited

namespace Camera

def all : List Camera := [day, night]

def other : Camera → Camera
  | day => night
  | night => day

def index : Camera → UInt8
  | day => 0
  | night => 1

def ofIndex? (n : UInt8) : Option Camera :=
  if n = 0 then some day else if n = 1 then some night else none

def name : Camera → String
  | day => "day"
  | night => "night"

@[simp] theorem other_other (c : Camera) : c.other.other = c := by cases c <;> rfl

theorem eq_other_of_ne {a b : Camera} (h : a ≠ b) : a = b.other := by
  cases a <;> cases b <;> simp_all [other]

@[simp] theorem ofIndex?_index (c : Camera) : ofIndex? c.index = some c := by cases c <;> rfl

end Camera

inductive ControlMode
  | auto
  | manual
  deriving DecidableEq, Repr, Inhabited

def ControlMode.name : ControlMode → String
  | auto => "auto"
  | manual => "manual"

-- A text that names neither of the two choices; `got` is the text as it was compared.
inductive UnknownName
  | camera (got : String)
  | mode (got : String)
  deriving DecidableEq, Repr

def UnknownName.message : UnknownName → String
  | camera got => "camera must be 'day' or 'night', got '" ++ got ++ "'"
  | mode got => "mode must be 'auto' or 'manual', got '" ++ got ++ "'"

-- Blanks around the name and the case of ASCII letters do not matter.
def Camera.parse (s : String) : Except UnknownName Camera :=
  let name := Text.normalized s
  if name = "day" then .ok day
  else if name = "night" then .ok night
  else .error (.camera name)

def ControlMode.parse (s : String) : Except UnknownName ControlMode :=
  let name := Text.normalized s
  if name = "auto" then .ok auto
  else if name = "manual" then .ok manual
  else .error (.mode name)

structure PerCamera (α : Type) where
  day : α
  night : α
  deriving DecidableEq, Repr, Inhabited

namespace PerCamera

variable {α : Type}

def both (a : α) : PerCamera α := ⟨a, a⟩

def get (p : PerCamera α) : Camera → α
  | .day => p.day
  | .night => p.night

def set (p : PerCamera α) (c : Camera) (a : α) : PerCamera α :=
  match c with
  | .day => { p with day := a }
  | .night => { p with night := a }

def modify (p : PerCamera α) (c : Camera) (f : α → α) : PerCamera α :=
  p.set c (f (p.get c))

@[simp] theorem get_both (a : α) (c : Camera) : (both a).get c = a := by cases c <;> rfl

@[simp] theorem get_set_self (p : PerCamera α) (c : Camera) (a : α) : (p.set c a).get c = a := by
  cases c <;> rfl

theorem get_set_of_ne (p : PerCamera α) {c d : Camera} (h : d ≠ c) (a : α) :
    (p.set c a).get d = p.get d := by
  cases c <;> cases d <;> simp_all [get, set]

section

variable {β : Type} (p : PerCamera α) (c : Camera) (new : α) (f : α → List β)

-- With one entry changes what is collected from both.
theorem flatMap_set_perm : (f (p.get c) ++ Camera.all.flatMap fun d => f ((p.set c new).get d)).Perm
    (f new ++ Camera.all.flatMap fun d => f (p.get d)) := by
  simp only [Camera.all, List.flatMap_cons, List.flatMap_nil, List.append_nil]
  cases c
  case day => exact List.perm_append_comm_assoc ..
  case night =>
    refine List.perm_append_comm.trans ?_
    rw [← List.append_assoc (f new)]
    exact List.perm_append_comm.append_right _

theorem count_set [BEq β] (x : β) :
    (Camera.all.flatMap fun d => f ((p.set c new).get d)).count x + (f (p.get c)).count x =
      (Camera.all.flatMap fun d => f (p.get d)).count x + (f new).count x := by
  have h := (p.flatMap_set_perm c new f).countP_eq (· == x)
  simp only [List.countP_append] at h
  simp only [List.count]
  omega

end

end PerCamera

end DayNight
