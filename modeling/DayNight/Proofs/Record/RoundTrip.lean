import DayNight.Proofs.Bytes.Fields
import DayNight.Record.Detection
import Mathlib.Algebra.Group.Int.Defs

namespace DayNight

open Record

-- The encoded length is the length of the encoding.
class Record.Lawful (α : Type) [Record α] : Prop where
  length_encode (value : α) : (encode value).length = encodedLength value

-- A record that is written over the start of a buffer takes as many bytes as it should, and leaves
-- the others alone.
structure Record.Fills {α : Type} [Record α] (value : α) (buffer : Bytes) : Prop where
  length  : (encodeInto value buffer).length = buffer.length
  written : (encodeInto value buffer).take (encodedLength value) = encode value
  kept    : (encodeInto value buffer).drop (encodedLength value) = buffer.drop (encodedLength value)

section Filling

variable {α : Type} [Record α] [Record.Lawful α] {value : α} {buffer : Bytes}

theorem encodeInto_eq (h : encodedLength value ≤ buffer.length) :
    encodeInto value buffer = encode value ++ buffer.drop (encodedLength value) := by
  rw [← Lawful.length_encode] at h ⊢
  exact Bytes.overwrite_zero h

theorem Record.fills (h : encodedLength value ≤ buffer.length) : Fills value buffer where
  length  := by simp [encodeInto_eq h, Lawful.length_encode, h]
  written := by rw [encodeInto_eq h, List.take_left' (Lawful.length_encode value)]
  kept    := by rw [encodeInto_eq h, List.drop_left' (Lawful.length_encode value)]

end Filling

-- A count that is stored in 32 bits loses its high part, and with it the elements beyond.
theorem take_length_mod_eq_iff {α : Type} {xs : List α} :
    xs.take (xs.length % 2 ^ 32) = xs ↔ xs.length < 2 ^ 32 := by
  constructor <;> intro h
  case mp =>
    have := congrArg List.length h
    rw [List.length_take] at this
    omega
  case mpr => rw [Nat.mod_eq_of_lt h, List.take_length]

namespace WallTime

-- What is left of a point in time once it has been stored.
def reread (t : WallTime) : WallTime := ⟨t.stored⟩

theorem stored_lt (t : WallTime) : t.stored < 256 ^ 8 := by
  simp only [stored]
  split
  · decide
  · exact Nat.mod_lt _ (by decide)

theorem reread_eq_iff {t : WallTime} : t.reread = t ↔ 0 ≤ t.nanos ∧ t.nanos < 2 ^ 64 := by
  cases t with | mk n =>
  simp only [reread, stored, mk.injEq, UInt64.size]
  split <;> omega

end WallTime

namespace Frame

variable (f : Frame)

def rereadDeviceTime : Option Duration :=
  if f.storedDeviceTime = noDeviceTime then none else some ⟨f.storedDeviceTime⟩

-- The frame that is found where `f` was stored.
def reread : Frame where
  image := { f.image with
    data := f.image.data.take (f.image.data.length % 2 ^ 32)
    deviceTime := f.rereadDeviceTime }
  camera := f.camera
  sequence := f.sequence
  takenAt := f.takenAt.reread

theorem storedDeviceTime_lt : f.storedDeviceTime < 256 ^ 8 := by
  simp only [storedDeviceTime, noDeviceTime]
  split
  · exact Nat.mod_lt _ (by decide)
  · decide

@[simp] theorem length_encode : f.encode.length = 40 + f.image.data.length := by
  simp [encode]
  omega

instance : Record.Lawful Frame := ⟨length_encode⟩

theorem decode_encode_append (rest : Bytes) : decode (f.encode ++ rest) = .ok f.reread := by
  have hlength   : (f.encode ++ rest).length = 40 + f.image.data.length + rest.length := by simp
  have hsequence : (f.encode ++ rest).number 0 8 = f.sequence.toNat := by simp [encode]
  have htakenAt  : (f.encode ++ rest).number 8 8 = f.takenAt.stored := by
    simpa [encode] using Nat.mod_eq_of_lt f.takenAt.stored_lt
  have hdevice   : (f.encode ++ rest).number 16 8 = f.storedDeviceTime := by
    simpa [encode] using Nat.mod_eq_of_lt f.storedDeviceTime_lt
  have hwidth    : (f.encode ++ rest).number 24 4 = f.image.width.toNat := by simp [encode]
  have hheight   : (f.encode ++ rest).number 28 4 = f.image.height.toNat := by simp [encode]
  have hcamera   : (f.encode ++ rest).number 32 1 = f.camera.index.toNat := by simp [encode]
  have hformat   : (f.encode ++ rest).number 33 1 = f.image.format.code.toNat := by simp [encode]
  have hclaimed  : (f.encode ++ rest).number 36 4 = f.image.data.length % 2 ^ 32 := by
    simp [encode]
  have hdata (n) : (f.encode ++ rest).slice 40 n = (f.image.data ++ rest).take n := by
    simp [encode]
  have hle       : f.image.data.length % 2 ^ 32 ≤ f.image.data.length := Nat.mod_le ..
  have hlong     : ¬ 40 + f.image.data.length + rest.length < 40 := by omega
  have hpresent  :
      ¬ 40 + f.image.data.length + rest.length - 40 < f.image.data.length % 2 ^ 32 := by
    omega
  simp only [decode, headerLength, hlength, hsequence, htakenAt, hdevice, hwidth, hheight, hcamera,
    hformat, hclaimed, hdata, hlong, hpresent, if_false, UInt8.ofNat_toNat, UInt32.ofNat_toNat,
    UInt64.ofNat_toNat, Camera.ofIndex?_index, PixelFormat.ofCode?_code,
    List.take_append_of_le_length hle]
  rfl

theorem rereadDeviceTime_eq_iff : f.rereadDeviceTime = f.image.deviceTime ↔
    ∀ d ∈ f.image.deviceTime, d.nanos < 2 ^ 64 - 1 := by
  cases hd : f.image.deviceTime
  case none => simp [rereadDeviceTime, storedDeviceTime, hd]
  case some d =>
    cases d with | mk n =>
    simp only [rereadDeviceTime, storedDeviceTime, hd, noDeviceTime, UInt64.size]
    split <;> simp <;> omega

-- The frames that the byte form holds without loss.
def Exact : Prop :=
  (0 ≤ f.takenAt.nanos ∧ f.takenAt.nanos < 2 ^ 64) ∧
  (∀ d ∈ f.image.deviceTime, d.nanos < 2 ^ 64 - 1) ∧ f.image.data.length < 2 ^ 32

theorem reread_eq_iff : f.reread = f ↔ f.Exact := by
  rw [Exact, ← WallTime.reread_eq_iff, ← rereadDeviceTime_eq_iff, ← take_length_mod_eq_iff]
  constructor <;> intro h
  case mp =>
    exact ⟨congrArg takenAt h, congrArg (·.image.deviceTime) h, congrArg (·.image.data) h⟩
  case mpr =>
    have ⟨ht, hd, hn⟩ := h
    rw [reread, ht, hd, hn]

end Frame

namespace Box

theorem decode_encode_append (b : Box) (rest : Bytes) : decode (b.encode ++ rest) = b := by
  simp [decode, encode]

@[simp] theorem length_encode (b : Box) : b.encode.length = 24 := by
  simp [encode]

theorem length_flatMap_encode (boxes : List Box) :
    (boxes.flatMap encode).length = boxes.length * 24 := by
  induction boxes
  case nil => rfl
  case cons b boxes ih =>
    rw [List.flatMap_cons, List.length_append, length_encode, ih, List.length_cons]
    omega

theorem decodeMany_encode_append (boxes : List Box) (rest : Bytes) {count : Nat}
    (h : count ≤ boxes.length) :
    decodeMany count (boxes.flatMap encode ++ rest) = boxes.take count := by
  induction boxes generalizing count
  case nil =>
    obtain rfl : count = 0 := by simpa using h
    rfl
  case cons b boxes ih =>
    cases count
    case zero => rfl
    case succ count =>
      have hd : (b.encode ++ (boxes.flatMap encode ++ rest)).drop 24 =
          boxes.flatMap encode ++ rest := List.drop_left' (length_encode b)
      rw [List.flatMap_cons, List.append_assoc, decodeMany, decode_encode_append, recordLength, hd,
        ih (Nat.le_of_succ_le_succ h), List.take_succ_cons]

end Box

namespace Detection

variable (d : Detection)

-- The detection that is found where `d` was stored.
def reread : Detection where
  boxes := d.boxes.take (d.boxes.length % 2 ^ 32)
  takenAt := d.takenAt.reread
  frameSequence := d.frameSequence

@[simp] theorem length_encode : d.encode.length = 24 + d.boxes.length * 24 := by
  simp only [encode, List.length_append, Bytes.length_ofNat, Box.length_flatMap_encode,
    List.length_cons, List.length_nil]

instance : Record.Lawful Detection := ⟨length_encode⟩

theorem decode_encode_append (rest : Bytes) : decode (d.encode ++ rest) = .ok d.reread := by
  have hlength   : (d.encode ++ rest).length = 24 + d.boxes.length * 24 + rest.length := by simp
  have htakenAt  : (d.encode ++ rest).number 0 8 = d.takenAt.stored := by
    simpa [encode] using Nat.mod_eq_of_lt d.takenAt.stored_lt
  have hsequence : (d.encode ++ rest).number 8 8 = d.frameSequence.toNat := by simp [encode]
  have hclaimed  : (d.encode ++ rest).number 16 4 = d.boxes.length % 2 ^ 32 := by simp [encode]
  have hboxes    : (d.encode ++ rest).drop 24 = d.boxes.flatMap Box.encode ++ rest := by
    simp [encode]
  have hle       : d.boxes.length % 2 ^ 32 ≤ d.boxes.length := Nat.mod_le ..
  have hlong     : ¬ 24 + d.boxes.length * 24 + rest.length < 24 := by omega
  have hpresent  :
      ¬ 24 + d.boxes.length * 24 + rest.length - 24 < d.boxes.length % 2 ^ 32 * 24 := by
    omega
  simp only [decode, headerLength, Box.recordLength, hlength, htakenAt, hsequence, hclaimed, hboxes,
    hlong, hpresent, if_false, UInt64.ofNat_toNat, Box.decodeMany_encode_append _ _ hle]
  rfl

-- The detections that the byte form holds without loss.
def Exact : Prop :=
  (0 ≤ d.takenAt.nanos ∧ d.takenAt.nanos < 2 ^ 64) ∧ d.boxes.length < 2 ^ 32

theorem reread_eq_iff : d.reread = d ↔ d.Exact := by
  rw [Exact, ← WallTime.reread_eq_iff, ← take_length_mod_eq_iff]
  constructor <;> intro h
  case mp => exact ⟨congrArg takenAt h, congrArg boxes h⟩
  case mpr => rw [reread, h.1, h.2]

end Detection

theorem round_trip_iff_exact :
    (∀ (f : Frame) (buffer : Bytes), encodedLength f ≤ buffer.length →
      (∀ n capacity : UInt64, n.toNat = f.image.data.length →
        (Frame.encodedCapacity n = .ok capacity ↔ capacity.toNat = encodedLength f)) ∧
      Fills f buffer ∧ ∃ g, decode (encodeInto f buffer) = .ok g ∧ (g = f ↔ f.Exact)) ∧
    (∀ (d : Detection) (buffer : Bytes), encodedLength d ≤ buffer.length →
      (∀ n capacity : UInt64, n.toNat = d.boxes.length →
        (Detection.encodedCapacity n = .ok capacity ↔ capacity.toNat = encodedLength d)) ∧
      Fills d buffer ∧ ∃ e, decode (encodeInto d buffer) = .ok e ∧ (e = d ↔ d.Exact)) := by
  constructor
  case left =>
    intro f buffer h
    refine ⟨fun n capacity hn => ?_, fills h, f.reread, ?_, f.reread_eq_iff⟩
    · rw [Frame.encodedCapacity_eq_ok, hn]
      rfl
    · rw [encodeInto_eq h]
      exact f.decode_encode_append _
  case right =>
    intro d buffer h
    refine ⟨fun n capacity hn => ?_, fills h, d.reread, ?_, d.reread_eq_iff⟩
    · rw [Detection.encodedCapacity_eq_ok, hn]
      rfl
    · rw [encodeInto_eq h]
      exact d.decode_encode_append _

-- A frame from before 1970 does not come back as it was, a detection from 1970 does.
theorem round_trip_around_1970 :
    let f : Frame := ⟨⟨[1, 2, 3], 3, 1, .gray8, none⟩, .night, 7, ⟨-5⟩⟩
    let d : Detection := ⟨[⟨1, ⟨0x7FC00000⟩, -4, 0, 2, 2⟩], ⟨5⟩, 7⟩
    let buffer : Bytes := List.replicate 50 0xEE
    (encodedLength f ≤ buffer.length ∧ decode (encodeInto f buffer) ≠ .ok f) ∧
    (encodedLength d ≤ buffer.length ∧ decode (encodeInto d buffer) = .ok d) := by
  intro f d buffer
  have hf : encodedLength f ≤ buffer.length := by decide
  have hd : encodedLength d ≤ buffer.length := by decide
  have ⟨_, _, g, hg, hgf⟩ := round_trip_iff_exact.1 f buffer hf
  have ⟨_, _, e, he, hed⟩ := round_trip_iff_exact.2 d buffer hd
  refine ⟨⟨hf, fun h => ?_⟩, hd, ?_⟩
  · have := (hgf.mp (Except.ok.inj (hg.symm.trans h))).1.1
    exact absurd this (by decide)
  · rw [he, hed.mpr ⟨by decide, by decide⟩]

end DayNight
