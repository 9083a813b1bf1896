import DayNight.Jpeg.Colour
import DayNight.Jpeg.Plane
import DayNight.Luma

namespace DayNight.Jpeg

abbrev Picture := List Plane

namespace Picture

def draw (cs : List CodedComponent) (rows : List (List CodedUnit)) (picture : Picture) : Picture :=
  cs.zipIdx.foldl (fun picture (c, i) =>
    let drawn : Rows := rows.map fun units => units.map fun unit => unit[i]?.getD []
    picture.modify c.place (Plane.draw drawn)) picture

-- The pictures of scans one over the other. The fuel bounds the number of scans.
def ofScans (h : Header) (width height : Nat) :
    Nat → List ScanComponent → Progress → Picture → Option Picture
  | 0, _, _, _ => none
  | fuel + 1, cs, p, picture => do
    let coded ← cs.mapM (·.coded? h)
    let (rows, following) ← p.rows h coded width height
    let picture := picture.draw coded rows
    match following with
    | none => return picture
    | some (cs, p) => ofScans h width height fuel cs p picture

-- How many lines of pixels are drawn after so many rows of all. Where a component goes over
-- smoothly into the next row, the last lines wait for that row, and without it are not drawn.
def linesDrawn (h : Header) (rows height : Nat) : Nat :=
  let most := h.largestSampling
  let isSmooth := h.components.any fun c => most.isSmoothDown (h.sampling c)
  rows * blockSide * most.down - if isSmooth ∧ rows < height then most.down else 0

-- The picture of a scan with all components, and how many lines of it are drawn. What follows that
-- scan is not read.
def ofScan (h : Header) (width height : Nat) (cs : List ScanComponent) (p : Progress)
    (picture : Picture) : Option (Picture × Nat) := do
  let coded ← cs.mapM (·.coded? h)
  let (rows, _) ← p.rows h coded width height
  return (picture.draw coded rows, linesDrawn h rows.length height)

end Picture

-- Whether all components have their tables. A component that the first scan does not name has those
-- with number zero until then.
def Header.hasTables (h : Header) (cs : List ScanComponent) : Bool :=
  (List.range h.components.length).all fun place =>
    (((cs.find? (·.place = place)).getD ⟨place, 0, 0⟩).coded? h).isSome

def Header.firstIsSampled (h : Header) : Bool :=
  h.components.head?.map h.sampling ≠ some .single || h.largestSampling = .single

-- Row by row: one sample for each pixel if the file has one component, and otherwise red, green and
-- blue. A line that is not drawn is dark.
def decode? (bytes : Bytes) : Option JpegPicture := do
  let (h, rest) ← Header.read? bytes
  let (cs, rest) ← scanHeader? h rest
  guard (h.colours ≠ .cmyk)
  guard (h.firstIsSampled ∧ h.hasTables cs)
  let most := h.largestSampling
  let width := (h.width + blockSide * most.across - 1) / (blockSide * most.across)
  let height := (h.height + blockSide * most.down - 1) / (blockSide * most.down)
  let blank : Picture := h.components.map fun c => .blank width height (h.sampling c)
  let p := Progress.start h rest
  let (picture, lines) ←
    if cs.length = h.components.length then Picture.ofScan h width height cs p blank
    else
      (Picture.ofScans h width height (rest.length + 1) cs p blank).map fun picture =>
        (picture, h.height)
  let grids := picture.map Plane.grid
  let pixel (x y : Nat) : Bytes :=
    if y < lines then h.colours.pixel (grids.map fun grid => grid.shown most x y)
    else List.replicate grids.length 0
  let pixels := (List.range h.height).flatMap fun y =>
    (List.range h.width).flatMap fun x => pixel x y
  return ⟨pixels, some (UInt64.ofNat h.width, UInt64.ofNat h.height)⟩

def decoder : JpegDecoder := fun bytes =>
  match decode? bytes with
  | some picture => .ok picture
  | none => .error "damaged, or of a kind that is not read"

end DayNight.Jpeg
