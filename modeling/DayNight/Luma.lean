import DayNight.Image
import DayNight.Word

namespace DayNight

inductive LumaError
  | shortBuffer (format : PixelFormat) (length expected : Nat) (width height : UInt32)
  | empty
  | jpeg (detail : String)
  -- The program breaks off.
  | overflow (o : Overflow)
  deriving DecidableEq, Repr

def LumaError.message : LumaError → String
  | shortBuffer format length expected width height =>
    format.name ++ " buffer holds " ++ toString length ++ " bytes, need " ++ toString expected
      ++ " for " ++ toString width.toNat ++ "x" ++ toString height.toNat
  | empty => "image has no pixels"
  | jpeg detail => "jpeg decode failed: " ++ detail
  | overflow o => o.message

-- What a JPEG file shows: the samples of all pixels, row by row, and its width and height.
structure JpegPicture where
  samples : Bytes
  size : Option (UInt64 × UInt64)

-- A decoder of JPEG files. It says why a file shows nothing.
abbrev JpegDecoder := Bytes → Except String JpegPicture

-- To this one no file shows anything.
def JpegDecoder.blind : JpegDecoder := fun _ => .error "no picture"

namespace Luma

def total (samples : Bytes) : Nat := samples.foldl (fun sum b => sum + b.toNat) 0

def mean (samples : Bytes) : Float :=
  Float.ofNat (total samples) / Float.ofNat samples.length

def everySecond : Bytes → Bytes
  | a :: _ :: rest => a :: everySecond rest
  | rest => rest

inductive Order
  | rgb
  | bgr
  deriving DecidableEq, Repr

-- The brightness of one pixel with the weights of BT.601.
def weigh (r g b : UInt8) : Float :=
  0.299 * r.toFloat + 0.587 * g.toFloat + 0.114 * b.toFloat

-- The sum over all whole pixels, added from left to right.
def weighAll (order : Order) : Bytes → Float → Float
  | a :: b :: c :: rest, sum =>
    weighAll order rest (sum + match order with
      | .rgb => weigh a b c
      | .bgr => weigh c b a)
  | _, sum => sum

def weightedMean (order : Order) (data : Bytes) : Float :=
  weighAll order data (-0.0) / Float.ofNat (data.length / 3)

def pixelCount (width height : UInt32) : Except Overflow UInt64 :=
  Word.multiply width.toUInt64 height.toUInt64

-- The first three samples of each of so many pixels that have `channels` samples each.
def colours (channels : Nat) : Nat → Bytes → Bytes
  | 0, _ => []
  | pixels + 1, samples => samples.take 3 ++ colours channels pixels (samples.drop channels)

def ofPicture (picture : JpegPicture) : Except LumaError Float :=
  match picture.size with
  | none => .error (.jpeg "missing dimensions")
  | some (width, height) =>
    match Word.multiply width height with
    | .error o => .error (.overflow o)
    | .ok pixels =>
      let samples := picture.samples
      let pixels := pixels.toNat
      if pixels = 0 ∨ samples = [] then .error .empty
      else
        let channels := samples.length / pixels
        if channels = 1 then .ok (mean (samples.take pixels))
        else if channels = 3 then .ok (weightedMean .rgb (samples.take (pixels * 3)))
        else if 3 < channels then
          let coloured := colours channels (samples.length / channels) samples
          .ok (weighAll .rgb coloured (-0.0) / Float.ofNat pixels)
        else
          .error (.jpeg ("unexpected " ++ toString samples.length ++ " bytes for "
            ++ toString width.toNat ++ "x" ++ toString height.toNat))

def ofJpeg (jpeg : JpegDecoder) (data : Bytes) : Except LumaError Float :=
  match jpeg data with
  | .error detail => .error (.jpeg detail)
  | .ok picture => ofPicture picture

def require (data : Bytes) (width height : UInt32) (format : PixelFormat) :
    Except Overflow UInt64 → Except LumaError Bytes
  | .error o => .error (.overflow o)
  | .ok expected =>
    if data.length < expected.toNat then
      .error (.shortBuffer format data.length expected.toNat width height)
    else .ok (data.take expected.toNat)

def ofData (jpeg : JpegDecoder) (data : Bytes) (width height : UInt32) (format : PixelFormat) :
    Except LumaError Float :=
  match pixelCount width height with
  | .error o => .error (.overflow o)
  | .ok pixels =>
    if pixels = 0 then .error .empty
    else
      let require := require data width height format
      match format with
      | .gray8 => (require (.ok pixels)).map mean
      | .nv12 => (require (.ok pixels)).map mean
      | .yuyv4 =>
        (require (Word.multiply pixels 2)).map fun used =>
          Float.ofNat (total (everySecond used)) / Float.ofNat pixels.toNat
      | .rgb24 => (require (Word.multiply pixels 3)).map (weightedMean .rgb)
      | .bgr24 => (require (Word.multiply pixels 3)).map (weightedMean .bgr)
      | .mjpeg => ofJpeg jpeg data

end Luma

def Image.luma (jpeg : JpegDecoder) (image : Image) : Except LumaError Float :=
  Luma.ofData jpeg image.data image.width image.height image.format

end DayNight
