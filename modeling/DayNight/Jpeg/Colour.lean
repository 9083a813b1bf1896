import DayNight.Jpeg.Header

namespace DayNight.Jpeg

def clampByte (n : Int) : UInt8 :=
  if n < 0 then 0 else if 255 < n then 255 else UInt8.ofNat n.toNat

-- The whole part of a number of 14 binary places; what is more than a half goes up.
def roundPlaces (n : Int) : Int := Int.fdiv (n + 0x1FFF) 0x4000

-- Red, green and blue from a brightness and two differences. The weights have 14 binary places.
def redGreenBlue (y cb cr : UInt8) : Bytes :=
  let whole : Int := 0x4000 * y.toNat
  let (b, r) : Int × Int := (cb.toNat - 128, cr.toNat - 128)
  [clampByte (roundPlaces (whole + 22970 * r)),
   clampByte (roundPlaces (whole - 11700 * r - 5638 * b)),
   clampByte (roundPlaces (whole + 29032 * b))]

def Colours.pixel (colours : Colours) (samples : Bytes) : Bytes :=
  match colours, samples with
  | .yCbCr, [y, cb, cr] => redGreenBlue y cb cr
  | _, samples => samples

end DayNight.Jpeg
