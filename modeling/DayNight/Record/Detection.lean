import DayNight.Detection.Basic
import DayNight.Record.Frame

namespace DayNight

namespace Box

def recordLength : Nat := 24

def encode (box : Box) : Bytes :=
  Bytes.ofNat 4 box.classId.toNat
    ++ Bytes.ofNat 4 box.confidence.bits.toNat
    ++ Bytes.ofNat 4 box.x.toUInt32.toNat
    ++ Bytes.ofNat 4 box.y.toUInt32.toNat
    ++ Bytes.ofNat 4 box.w.toUInt32.toNat
    ++ Bytes.ofNat 4 box.h.toUInt32.toNat

def decode (bytes : Bytes) : Box where
  classId := UInt32.ofNat (bytes.number 0 4)
  confidence := ⟨UInt32.ofNat (bytes.number 4 4)⟩
  x := (UInt32.ofNat (bytes.number 8 4)).toInt32
  y := (UInt32.ofNat (bytes.number 12 4)).toInt32
  w := (UInt32.ofNat (bytes.number 16 4)).toInt32
  h := (UInt32.ofNat (bytes.number 20 4)).toInt32

def decodeMany : Nat → Bytes → List Box
  | 0, _ => []
  | count + 1, bytes => decode bytes :: decodeMany count (bytes.drop recordLength)

end Box

namespace Detection

def headerLength : Nat := 24

-- The length of a record with so many boxes.
def encodedCapacity (boxes : UInt64) : Except Overflow UInt64 := do
  Word.add 24 (← Word.multiply boxes 24)

theorem encodedCapacity_eq_ok {boxes capacity : UInt64} :
    encodedCapacity boxes = .ok capacity ↔ capacity.toNat = 24 + boxes.toNat * 24 := by
  have hc := capacity.toNat_lt_size
  by_cases hb : boxes.toNat * 24 < UInt64.size
  case pos =>
    have ⟨hw, hn⟩ := Word.multiply_of_lt (b := 24) hb
    rw [encodedCapacity, hw]
    exact Word.add_eq_ok.trans (iff_of_eq (congrArg (capacity.toNat = 24 + ·) hn))
  case neg =>
    rw [encodedCapacity, Word.multiply_of_le (b := 24) (Nat.not_lt.mp hb)]
    exact ⟨nofun, fun h => by omega⟩

def encode (detection : Detection) : Bytes :=
  Bytes.ofNat 8 detection.takenAt.stored
    ++ Bytes.ofNat 8 detection.frameSequence.toNat
    ++ Bytes.ofNat 4 detection.boxes.length
    ++ [0, 0, 0, 0]
    ++ detection.boxes.flatMap Box.encode

def decode (bytes : Bytes) : Except RecordFault Detection :=
  if bytes.length < headerLength then .error (.shortDetection bytes.length)
  else
    let claimed := bytes.number 16 4
    let present := bytes.length - headerLength
    if present < claimed * Box.recordLength then .error (.missingBoxes claimed present)
    else
      .ok {
        boxes := Box.decodeMany claimed (bytes.drop headerLength)
        takenAt := ⟨bytes.number 0 8⟩
        frameSequence := UInt64.ofNat (bytes.number 8 8) }

end Detection

instance : Record Detection where
  kind := 2
  encodedLength detection := Detection.headerLength + detection.boxes.length * Box.recordLength
  encode := Detection.encode
  decode := Detection.decode

end DayNight
