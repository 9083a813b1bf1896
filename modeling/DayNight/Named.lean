namespace DayNight

-- There is at most one value for each name.
@[ext] structure Named (α : Type) where
  entries : List (String × α)
  unique  : (entries.map (·.1)).Nodup

namespace Named

variable {α : Type}

def empty : Named α := ⟨[], List.nodup_nil⟩

def get? (n : Named α) (name : String) : Option α := n.entries.lookup name

def erase (n : Named α) (name : String) : Named α where
  entries := n.entries.filter fun entry => entry.1 ≠ name
  unique  := n.unique.sublist (List.filter_sublist.map _)

theorem notMem_erase (n : Named α) (name : String) : name ∉ (n.erase name).entries.map (·.1) := by
  simp [erase]

def put (n : Named α) (name : String) (a : α) : Named α where
  entries := (name, a) :: (n.erase name).entries
  unique  := List.nodup_cons.mpr ⟨n.notMem_erase name, (n.erase name).unique⟩

-- Changes the value of that name, if there is one.
def modify (n : Named α) (name : String) (f : α → α) : Named α where
  entries := n.entries.map fun entry => (entry.1, if entry.1 = name then f entry.2 else entry.2)
  unique  := by
    rw [List.map_map]
    exact n.unique

def values (n : Named α) : List α := n.entries.map (·.2)

end Named

end DayNight
