import DayNight.Device
import DayNight.Image
import DayNight.Source

namespace DayNight

-- It shows a flat grey image with a brighter column that moves by one pixel from image to image.
structure SyntheticCamera where
  width : UInt32
  height : UInt32
  brightness : Float
  failOpen : Bool
  failReads : Bool
  readDelay : Duration
  -- Counted without a bound, as no run comes to 2 ^ 64 opens.
  opens : Nat
  openHandles : Int

-- An opened camera. `tick` counts the images read through it, without a bound too.
structure SyntheticHandle where
  camera : Camera
  tick : Nat
  closed : Bool
  deriving DecidableEq, Repr, Inhabited

def SyntheticHandle.shut (h : SyntheticHandle) : SyntheticHandle := { h with closed := true }

namespace SyntheticCamera

def new (width height : UInt32) (brightness : Float) : SyntheticCamera :=
  ⟨width, height, brightness, false, false, .zero, 0, 0⟩

-- Keeps the brightness between 0 and 255; what is no number stays as it is.
def setBrightness (c : SyntheticCamera) (value : Float) : SyntheticCamera :=
  { c with brightness := if value < 0 then 0 else if 255 < value then 255 else value }

def setReadDelay (c : SyntheticCamera) (delay : Duration) : SyntheticCamera :=
  { c with readDelay := .ofMillis (delay.nanos / 1000000) }

def level (c : SyntheticCamera) : UInt8 :=
  let whole := c.brightness.toUInt8
  if c.brightness - whole.toFloat ≥ 0.5 then whole + 1 else whole

def barLevel (level : UInt8) : UInt8 := if 223 ≤ level then 255 else level + 32

def row (width : Nat) (level : UInt8) (tick : Nat) : Bytes :=
  (List.range width).map fun x => if x = tick % width then barLevel level else level

def render (c : SyntheticCamera) (tick : Nat) : Image where
  data := (List.replicate c.height.toNat (row c.width.toNat c.level tick)).flatten
  width := c.width
  height := c.height
  format := .gray8
  deviceTime := none

def openDevice (c : SyntheticCamera) (role : Camera) (device : Device) :
    Except SourceError SyntheticHandle × SyntheticCamera :=
  if c.failOpen then (.error (.opening device.display "synthetic open failure"), c)
  else
    (.ok ⟨role, 0, false⟩, { c with opens := c.opens + 1, openHandles := c.openHandles + 1 })

-- The camera after a handle is closed; closing it again changes nothing.
def closeHandle (c : SyntheticCamera) (h : SyntheticHandle) : SyntheticCamera :=
  if h.closed then c else { c with openHandles := c.openHandles - 1 }

def readTime (c : SyntheticCamera) (h : SyntheticHandle) (timeout : Duration) : Duration :=
  if h.closed then .zero else ⟨min c.readDelay.nanos timeout.nanos⟩

-- Reads an image. Only a read that succeeds moves the bright column.
def readImage (c : SyntheticCamera) (h : SyntheticHandle) (timeout : Duration) :
    Except SourceError Image × SyntheticHandle :=
  if h.closed then (.error (.reading "handle closed"), h)
  else if timeout < c.readDelay then (.error (.readTimeout timeout), h)
  else if c.failReads then (.error (.reading "synthetic read failure"), h)
  else (.ok (c.render (h.tick + 1)), { h with tick := h.tick + 1 })

end SyntheticCamera

end DayNight
