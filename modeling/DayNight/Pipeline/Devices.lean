import DayNight.Camera

namespace DayNight.Pipeline

structure Handle where
  id : Nat
  camera : Camera
  deriving DecidableEq, Repr, Inhabited

structure Devices where
  nextId : Nat
  -- Opens that a thread waits for.
  opening : List Handle
  -- Opens that nobody waits for any more.
  abandoned : List Handle
  -- Open handles that were waited for.
  opened : List Handle
  -- Open handles that came too late.
  stray : List Handle
  deriving DecidableEq, Repr, Inhabited

namespace Devices

def unused : Devices := ⟨0, [], [], [], []⟩

def begin (d : Devices) (camera : Camera) : Handle × Devices :=
  let handle : Handle := ⟨d.nextId, camera⟩
  (handle, { d with nextId := d.nextId + 1, opening := handle :: d.opening })

def arrive (d : Devices) (h : Handle) : Devices :=
  { d with opening := d.opening.erase h, opened := h :: d.opened }

def refuse (d : Devices) (h : Handle) : Devices :=
  { d with opening := d.opening.erase h }

def abandon (d : Devices) (h : Handle) : Devices :=
  { d with opening := d.opening.erase h, abandoned := h :: d.abandoned }

def close (d : Devices) (h : Handle) : Devices :=
  { d with opened := d.opened.erase h }

def arriveLate? (d : Devices) (h : Handle) : Option Devices :=
  if h ∈ d.abandoned then
    some { d with abandoned := d.abandoned.erase h, stray := h :: d.stray }
  else none

def refuseLate? (d : Devices) (h : Handle) : Option Devices :=
  if h ∈ d.abandoned then some { d with abandoned := d.abandoned.erase h } else none

def closeStray? (d : Devices) (h : Handle) : Option Devices :=
  if h ∈ d.stray then some { d with stray := d.stray.erase h } else none

def openHandles (d : Devices) (c : Camera) : List Handle :=
  (d.opened ++ d.stray).filter fun h => h.camera = c

-- The open handles of a camera and the opens under way.
def inUse (d : Devices) (c : Camera) : List Handle :=
  (d.opening ++ d.abandoned ++ d.opened ++ d.stray).filter fun h => h.camera = c

end Devices

end DayNight.Pipeline
