import DayNight.Jpeg.Scan

namespace DayNight.Jpeg

def blockSide : Nat := 8

-- Samples row by row; a row has units, and a unit blocks, one row of blocks after the other.
abbrev Rows := List (List (List UInt8))

structure Plane where
  sampling : Sampling
  rows : Rows

namespace Plane

def blank (width height : Nat) (sampling : Sampling) : Plane :=
  ⟨sampling, List.replicate height (List.replicate width (List.replicate sampling.blocks 0))⟩

def draw (rows : Rows) (plane : Plane) : Plane :=
  { plane with rows := rows ++ plane.rows.drop rows.length }

end Plane

structure Grid where
  sampling : Sampling
  units : Array (Array (Array UInt8))

def Plane.grid (plane : Plane) : Grid :=
  ⟨plane.sampling, (plane.rows.map fun row => (row.map List.toArray).toArray).toArray⟩

namespace Grid

def columns (g : Grid) : Nat := (g.units[0]?.getD #[]).size * g.sampling.across * blockSide

def lines (g : Grid) : Nat := g.units.size * g.sampling.down * blockSide

def sample (g : Grid) (column line : Nat) : Nat :=
  let ⟨across, down⟩ := g.sampling
  let (column, line) := (column / blockSide, line / blockSide)
  let unit := g.units[line / down]?.bind (·[column / across]?)
  let block := (line % down) * across + column % across
  ((unit.bind (·[block]?)).getD 0).toNat

end Grid

namespace Sampling

-- Whether there are at least half as many samples as with the largest factors, in both directions.
def isClose (most own : Sampling) : Bool :=
  most.across / own.across ≤ 2 && most.down / own.down ≤ 2

def isSmoothAcross (most own : Sampling) : Bool :=
  most.isClose own && most.across / own.across = 2

def isSmoothDown (most own : Sampling) : Bool := most.isClose own && most.down / own.down = 2

end Sampling

-- The samples that a place is shown by: the nearest one and another one beside it.
structure Meeting where
  near : Nat
  other : Nat

namespace Meeting

def alone (n : Nat) : Meeting := ⟨n, n⟩

-- Where there are half as many samples as places. The other sample is on the side of the place; at
-- an edge it is the nearest one itself.
def halfway (size place : Nat) : Meeting :=
  let near := place / 2
  let other := if place % 2 = 1 then near + 1 else near - 1
  ⟨near, if other < size then other else near⟩

-- Three quarters of the nearest value and one of the other; a half goes up.
def blend (m : Meeting) (value : Nat → Nat) : Nat := (3 * value m.near + value m.other + 2) / 4

end Meeting

-- What a component shows in a pixel, where `most` are the largest sampling factors.
def Grid.shown (most : Sampling) (g : Grid) (x y : Nat) : UInt8 :=
  let column : Meeting :=
    if most.isSmoothAcross g.sampling then .halfway g.columns x
    else .alone (x * g.sampling.across / most.across)
  let line : Meeting :=
    if most.isSmoothDown g.sampling then .halfway g.lines y
    else .alone (y * g.sampling.down / most.down)
  UInt8.ofNat (column.blend fun column => line.blend fun line => g.sample column line)

end DayNight.Jpeg
