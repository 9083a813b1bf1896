import DayNight.Proofs.Record.RoundTrip
import DayNight.Record.Reading

namespace DayNight

open Record

namespace Cursor

variable {bytes : Bytes} {offset width : Nat}

theorem run_take (h : offset + width ≤ bytes.length) :
    (take width).run (bytes.drop offset) =
      some (bytes.slice offset width, bytes.drop (offset + width)) := by
  have hw : width ≤ (bytes.drop offset).length := by
    rw [List.length_drop]
    omega
  rw [StateT.run, take, if_pos hw, List.drop_drop]
  rfl

theorem run_number (h : offset + width ≤ bytes.length) :
    (number width).run (bytes.drop offset) =
      some (bytes.number offset width, bytes.drop (offset + width)) := by
  rw [number, StateT.run_map, run_take h]
  rfl

theorem run_remaining : remaining.run (bytes.drop offset) =
    some (bytes.length - offset, bytes.drop offset) := by
  rw [remaining, StateT.run_map, StateT.run_get, ← List.length_drop]
  rfl

end Cursor

open Cursor

-- Each field of a frame is read from within its bytes, or the frame was refused before.
theorem Frame.run_read (bytes : Bytes) :
    Frame.read.run' bytes = some ((Frame.decode bytes).mapError RecordFault.error) := by
  have hb : Frame.read.run' bytes = (Frame.read.run (bytes.drop 0)).map (·.1) := rfl
  rw [hb, read, decode]
  by_cases hl : bytes.length < headerLength
  case pos =>
    simp only [StateT.run_bind, run_remaining, Nat.sub_zero, Option.bind_eq_bind, Option.bind_some,
      if_pos hl]
    rfl
  case neg =>
    have hle : 40 ≤ bytes.length := Nat.not_lt.mp hl
    simp (disch := omega) only [StateT.run_bind, run_remaining, run_number, Nat.sub_zero,
      Nat.zero_add, Nat.reduceAdd, if_neg hl, Option.bind_eq_bind, Option.bind_some]
    cases hc : Camera.ofIndex? (.ofNat (bytes.number 32 1))
    case none => rfl
    case some camera =>
      simp (disch := omega) only [StateT.run_bind, run_number, Nat.reduceAdd, Option.bind_eq_bind,
        Option.bind_some]
      cases hf : PixelFormat.ofCode? (.ofNat (bytes.number 33 1))
      case none => rfl
      case some format =>
        simp (disch := omega) only [StateT.run_bind, run_number, run_take, run_remaining,
          Nat.reduceAdd, Option.bind_eq_bind, Option.bind_some]
        by_cases hp : bytes.length - 40 < bytes.number 36 4
        case pos =>
          rw [headerLength, if_pos hp, if_pos hp]
          rfl
        case neg =>
          have hd : 40 + bytes.number 36 4 ≤ bytes.length := by omega
          rw [headerLength, if_neg hp, if_neg hp, StateT.run_bind, run_take hd]
          rfl

namespace Box

variable {bytes : Bytes} {offset : Nat}

theorem run_read (h : offset + 24 ≤ bytes.length) : read.run (bytes.drop offset) =
    some (decode (bytes.drop offset), bytes.drop (offset + 24)) := by
  rw [read]
  simp (disch := omega) only [StateT.run_bind, run_number, Nat.add_assoc, Nat.reduceAdd,
    Option.bind_eq_bind, Option.bind_some, StateT.run_pure]
  simp only [decode, Bytes.number_drop]
  rfl

theorem run_readMany {count : Nat} (h : offset + count * 24 ≤ bytes.length) :
    (readMany count).run (bytes.drop offset) =
      some (decodeMany count (bytes.drop offset), bytes.drop (offset + count * 24)) := by
  induction count generalizing offset
  case zero => rw [Nat.zero_mul]; rfl
  case succ count ih =>
    have hn : offset + (count + 1) * 24 = offset + 24 + count * 24 := by omega
    rw [hn] at h ⊢
    rw [readMany, StateT.run_bind, run_read (by omega), Option.bind_eq_bind, Option.bind_some,
      StateT.run_bind, ih h, decodeMany, List.drop_drop, recordLength]
    rfl

end Box

theorem Detection.run_read (bytes : Bytes) :
    Detection.read.run' bytes = some ((Detection.decode bytes).mapError RecordFault.error) := by
  have hb : Detection.read.run' bytes = (Detection.read.run (bytes.drop 0)).map (·.1) := rfl
  rw [hb, read, decode]
  by_cases hl : bytes.length < headerLength
  case pos =>
    simp only [StateT.run_bind, run_remaining, Nat.sub_zero, Option.bind_eq_bind, Option.bind_some,
      if_pos hl]
    rfl
  case neg =>
    have hle : 24 ≤ bytes.length := Nat.not_lt.mp hl
    simp (disch := omega) only [StateT.run_bind, run_remaining, run_number, run_take, Nat.sub_zero,
      Nat.zero_add, Nat.reduceAdd, if_neg hl, Option.bind_eq_bind, Option.bind_some]
    by_cases hp : bytes.length - 24 < bytes.number 16 4 * 24
    case pos =>
      rw [headerLength, Box.recordLength, if_pos hp, if_pos hp]
      rfl
    case neg =>
      have hd : 24 + bytes.number 16 4 * 24 ≤ bytes.length := by omega
      rw [headerLength, Box.recordLength, if_neg hp, if_neg hp, StateT.run_bind,
        Box.run_readMany hd]
      rfl

-- A code of one byte stands for one thing only.
theorem Camera.index_of_ofIndex? {n : UInt8} {c : Camera} (h : ofIndex? n = some c) :
    c.index = n := by
  unfold ofIndex? at h
  split at h
  case isTrue hn => cases h; exact hn.symm
  case isFalse =>
    split at h
    case isTrue hn => cases h; exact hn.symm
    case isFalse   => cases h

theorem Camera.isSome_ofIndex?_iff {n : UInt8} : (ofIndex? n).isSome ↔ n.toNat ≤ 1 := by
  have h0 : n = 0 ↔ n.toNat = 0 := UInt8.toNat_inj.symm
  have h1 : n = 1 ↔ n.toNat = 1 := UInt8.toNat_inj.symm
  unfold ofIndex?
  split
  case isTrue hn => simp [h0.mp hn]
  case isFalse hn =>
    split
    case isTrue hn'  => simp [h1.mp hn']
    case isFalse hn' =>
      rw [h0] at hn
      rw [h1] at hn'
      simp
      omega

theorem PixelFormat.code_of_ofCode? {n : UInt8} {format : PixelFormat}
    (h : ofCode? n = some format) : format.code = n :=
  eq_of_beq (List.find?_some (p := fun g : PixelFormat => g.code == n) h)

theorem PixelFormat.isSome_ofCode?_iff {n : UInt8} : (ofCode? n).isSome ↔ n.toNat ≤ 5 := by
  rw [ofCode?, List.find?_isSome]
  simp only [all, code, beq_iff_eq, ← UInt8.toNat_inj]
  simp
  omega

theorem WallTime.stored_ofNat {n : Nat} (h : n < 256 ^ 8) : stored ⟨n⟩ = n := by
  rw [stored, if_neg (Int.not_lt.mpr (Int.natCast_nonneg n)), Int.toNat_natCast]
  exact Nat.mod_eq_of_lt h

namespace Frame

variable {bytes : Bytes} {f : Frame}

-- A frame that is found in some bytes.
structure Found (bytes : Bytes) (f : Frame) : Prop where
  header     : 40 ≤ bytes.length
  present    : bytes.number 36 4 ≤ bytes.length - 40
  sequence   : f.sequence = .ofNat (bytes.number 0 8)
  takenAt    : f.takenAt = ⟨bytes.number 8 8⟩
  deviceTime : f.image.deviceTime =
    if bytes.number 16 8 = noDeviceTime then none else some ⟨bytes.number 16 8⟩
  width      : f.image.width = .ofNat (bytes.number 24 4)
  height     : f.image.height = .ofNat (bytes.number 28 4)
  camera     : Camera.ofIndex? (.ofNat (bytes.number 32 1)) = some f.camera
  format     : PixelFormat.ofCode? (.ofNat (bytes.number 33 1)) = some f.image.format
  data       : f.image.data = bytes.slice 40 (bytes.number 36 4)

theorem found_of_decode (h : decode bytes = .ok f) : Found bytes f := by
  unfold decode at h
  split at h
  case isTrue => cases h
  case isFalse hl =>
    split at h
    case h_1 => cases h
    case h_2 camera hc =>
      split at h
      case h_1 => cases h
      case h_2 format hf =>
        dsimp only at h
        split at h
        case isTrue => cases h
        case isFalse hp =>
          cases h
          exact ⟨Nat.not_lt.mp hl, Nat.not_lt.mp hp, rfl, rfl, rfl, rfl, rfl, hc, hf, rfl⟩

theorem isOk_decode_iff : (∃ f, decode bytes = .ok f) ↔
    40 ≤ bytes.length ∧ bytes.number 32 1 ≤ 1 ∧ bytes.number 33 1 ≤ 5 ∧
      bytes.number 36 4 ≤ bytes.length - 40 := by
  have hb (offset : Nat) : (UInt8.ofNat (bytes.number offset 1)).toNat = bytes.number offset 1 :=
    UInt8.toNat_ofNat_of_lt' (bytes.number_lt offset 1)
  have hcamera := Camera.isSome_ofIndex?_iff (n := .ofNat (bytes.number 32 1))
  have hformat := PixelFormat.isSome_ofCode?_iff (n := .ofNat (bytes.number 33 1))
  rw [hb] at hcamera hformat
  constructor
  case mp =>
    intro ⟨f, h⟩
    have hf := found_of_decode h
    exact ⟨hf.header, hcamera.mp (by rw [hf.camera]; rfl), hformat.mp (by rw [hf.format]; rfl),
      hf.present⟩
  case mpr =>
    intro ⟨hl, hc, hp, hd⟩
    have ⟨camera, hc⟩ := Option.isSome_iff_exists.mp (hcamera.mpr hc)
    have ⟨format, hp⟩ := Option.isSome_iff_exists.mp (hformat.mpr hp)
    rw [decode, headerLength, if_neg (Nat.not_lt.mpr hl), hc]
    dsimp only
    rw [hp]
    dsimp only
    rw [if_neg (Nat.not_lt.mpr hd)]
    exact ⟨_, rfl⟩

namespace Found

-- The byte that stands for a missing device time is read, and written, as a missing one.
theorem storedDeviceTime (h : Found bytes f) : f.storedDeviceTime = bytes.number 16 8 := by
  have hn : bytes.number 16 8 < UInt64.size := bytes.number_lt 16 8
  rw [Frame.storedDeviceTime, h.deviceTime]
  by_cases hd : bytes.number 16 8 = noDeviceTime
  case pos => rw [if_pos hd, hd]
  case neg =>
    rw [if_neg hd]
    exact Nat.mod_eq_of_lt hn

theorem length (h : Found bytes f) : f.image.data.length = bytes.number 36 4 := by
  have := h.header
  have := h.present
  rw [h.data, Bytes.length_slice (by omega)]

theorem encode_eq (h : Found bytes f) : f.encode =
    bytes.slice 0 34 ++ [0, 0] ++ bytes.slice 36 (4 + bytes.number 36 4) := by
  have hl := h.header
  have hsequence : Bytes.ofNat 8 f.sequence.toNat = bytes.slice 0 8 := by
    rw [h.sequence, UInt64.toNat_ofNat_of_lt' (bytes.number_lt 0 8),
      Bytes.ofNat_number (by omega)]
  have htakenAt : Bytes.ofNat 8 f.takenAt.stored = bytes.slice 8 8 := by
    rw [h.takenAt, WallTime.stored_ofNat (bytes.number_lt 8 8), Bytes.ofNat_number (by omega)]
  have hdevice : Bytes.ofNat 8 f.storedDeviceTime = bytes.slice 16 8 := by
    rw [h.storedDeviceTime, Bytes.ofNat_number (by omega)]
  have hwidth : Bytes.ofNat 4 f.image.width.toNat = bytes.slice 24 4 := by
    rw [h.width, UInt32.toNat_ofNat_of_lt' (bytes.number_lt 24 4), Bytes.ofNat_number (by omega)]
  have hheight : Bytes.ofNat 4 f.image.height.toNat = bytes.slice 28 4 := by
    rw [h.height, UInt32.toNat_ofNat_of_lt' (bytes.number_lt 28 4), Bytes.ofNat_number (by omega)]
  have hcamera : [f.camera.index] = bytes.slice 32 1 := by
    rw [Camera.index_of_ofIndex? h.camera, Bytes.byte_number (by omega)]
  have hformat : [f.image.format.code] = bytes.slice 33 1 := by
    rw [PixelFormat.code_of_ofCode? h.format, Bytes.byte_number (by omega)]
  have hclaimed : Bytes.ofNat 4 f.image.data.length = bytes.slice 36 4 := by
    rw [h.length, Bytes.ofNat_number (by omega)]
  have hhead : [f.camera.index, f.image.format.code, 0, 0] =
      bytes.slice 32 1 ++ bytes.slice 33 1 ++ [0, 0] := by
    rw [← hcamera, ← hformat]
    rfl
  rw [encode, hsequence, htakenAt, hdevice, hwidth, hheight, hhead, hclaimed, h.data]
  calc _ = bytes.slice 0 8 ++ bytes.slice (0 + 8) 8 ++ bytes.slice (0 + 16) 8 ++
          bytes.slice (0 + 24) 4 ++ bytes.slice (0 + 28) 4 ++ bytes.slice (0 + 32) 1 ++
          bytes.slice (0 + 33) 1 ++ [0, 0] ++
          (bytes.slice 36 4 ++ bytes.slice (36 + 4) (bytes.number 36 4)) := by
        simp only [List.append_assoc, Nat.zero_add]
    _ = _ := by simp only [Bytes.slice_append]

-- Only the two bytes that the format leaves unused may differ.
theorem encode_eq_overwrite (h : Found bytes f) : Record.encodedLength f ≤ bytes.length ∧
    f.encode = Bytes.overwrite (bytes.take (Record.encodedLength f)) 34 [0, 0] := by
  have hl := h.header
  have hp := h.present
  have hlength : Record.encodedLength f = 40 + bytes.number 36 4 := congrArg (40 + ·) h.length
  refine ⟨by omega, ?_⟩
  rw [hlength, Bytes.overwrite_take (by simp; omega) (by omega), h.encode_eq]
  have hrest : 40 + bytes.number 36 4 - (34 + [(0 : UInt8), 0].length) =
      4 + bytes.number 36 4 := by
    simp
    omega
  rw [hrest]
  rfl

end Found

end Frame

namespace Box

-- No byte of a box is unused.
theorem encode_decode {bytes : Bytes} (h : 24 ≤ bytes.length) :
    (decode bytes).encode = bytes.slice 0 24 := by
  have hfield {offset : Nat} (hf : offset + 4 ≤ 24) :
      Bytes.ofNat 4 (UInt32.ofNat (bytes.number offset 4)).toNat = bytes.slice offset 4 := by
    rw [UInt32.toNat_ofNat_of_lt' (bytes.number_lt offset 4), Bytes.ofNat_number (by omega)]
  calc _ = bytes.slice 0 4 ++ bytes.slice (0 + 4) 4 ++ bytes.slice (0 + 8) 4 ++
          bytes.slice (0 + 12) 4 ++ bytes.slice (0 + 16) 4 ++ bytes.slice (0 + 20) 4 := by
        simp (disch := omega) only [encode, decode, UInt32.toUInt32_toInt32, hfield, Nat.zero_add]
    _ = _ := by simp only [Bytes.slice_append]

theorem length_decodeMany (count : Nat) (bytes : Bytes) :
    (decodeMany count bytes).length = count := by
  induction count generalizing bytes
  case zero => rfl
  case succ count ih => rw [decodeMany, List.length_cons, ih]

theorem flatMap_encode_decodeMany {bytes : Bytes} {count : Nat} (h : count * 24 ≤ bytes.length) :
    (decodeMany count bytes).flatMap encode = bytes.slice 0 (count * 24) := by
  induction count generalizing bytes
  case zero => rw [Nat.zero_mul]; rfl
  case succ count ih =>
    have hd : count * 24 ≤ (bytes.drop 24).length := by
      rw [List.length_drop]
      omega
    have hn : 24 + count * 24 = (count + 1) * 24 := by omega
    rw [decodeMany, List.flatMap_cons, encode_decode (by omega), recordLength, ih hd, ← hn]
    exact Bytes.slice_append bytes 0 24 (count * 24)

end Box

namespace Detection

variable {bytes : Bytes} {d : Detection}

-- A detection that is found in some bytes.
structure Found (bytes : Bytes) (d : Detection) : Prop where
  header        : 24 ≤ bytes.length
  present       : bytes.number 16 4 * 24 ≤ bytes.length - 24
  takenAt       : d.takenAt = ⟨bytes.number 0 8⟩
  frameSequence : d.frameSequence = .ofNat (bytes.number 8 8)
  boxes         : d.boxes = Box.decodeMany (bytes.number 16 4) (bytes.drop 24)

theorem found_of_decode (h : decode bytes = .ok d) : Found bytes d := by
  unfold decode at h
  split at h
  case isTrue => cases h
  case isFalse hl =>
    dsimp only at h
    split at h
    case isTrue => cases h
    case isFalse hp =>
      cases h
      exact ⟨Nat.not_lt.mp hl, Nat.not_lt.mp hp, rfl, rfl, rfl⟩

theorem isOk_decode_iff : (∃ d, decode bytes = .ok d) ↔
    24 ≤ bytes.length ∧ 24 * bytes.number 16 4 ≤ bytes.length - 24 := by
  rw [Nat.mul_comm]
  constructor
  case mp =>
    intro ⟨d, h⟩
    exact ⟨(found_of_decode h).header, (found_of_decode h).present⟩
  case mpr =>
    intro ⟨hl, hp⟩
    rw [decode, headerLength, if_neg (Nat.not_lt.mpr hl)]
    dsimp only
    rw [Box.recordLength, if_neg (Nat.not_lt.mpr hp)]
    exact ⟨_, rfl⟩

namespace Found

theorem length (h : Found bytes d) : d.boxes.length = bytes.number 16 4 := by
  rw [h.boxes, Box.length_decodeMany]

theorem encode_eq (h : Found bytes d) : d.encode =
    bytes.slice 0 20 ++ [0, 0, 0, 0] ++ bytes.slice 24 (bytes.number 16 4 * 24) := by
  have hl := h.header
  have htakenAt : Bytes.ofNat 8 d.takenAt.stored = bytes.slice 0 8 := by
    rw [h.takenAt, WallTime.stored_ofNat (bytes.number_lt 0 8), Bytes.ofNat_number (by omega)]
  have hsequence : Bytes.ofNat 8 d.frameSequence.toNat = bytes.slice (0 + 8) 8 := by
    rw [h.frameSequence, UInt64.toNat_ofNat_of_lt' (bytes.number_lt 8 8),
      Bytes.ofNat_number (by omega)]
  have hclaimed : Bytes.ofNat 4 d.boxes.length = bytes.slice (0 + 8 + 8) 4 := by
    rw [h.length, Bytes.ofNat_number (by omega)]
  have hboxes : d.boxes.flatMap Box.encode = bytes.slice 24 (bytes.number 16 4 * 24) := by
    have hp : bytes.number 16 4 * 24 ≤ (bytes.drop 24).length := by
      rw [List.length_drop]
      exact h.present
    rw [h.boxes, Box.flatMap_encode_decodeMany hp]
    rfl
  rw [encode, htakenAt, hsequence, hclaimed, hboxes, Bytes.slice_append, Bytes.slice_append]

theorem encode_eq_overwrite (h : Found bytes d) : Record.encodedLength d ≤ bytes.length ∧
    d.encode = Bytes.overwrite (bytes.take (Record.encodedLength d)) 20 [0, 0, 0, 0] := by
  have hl := h.header
  have hp := h.present
  have hlength : Record.encodedLength d = 24 + bytes.number 16 4 * 24 :=
    congrArg (24 + · * 24) h.length
  refine ⟨by omega, ?_⟩
  rw [hlength, Bytes.overwrite_take (by simp) (by omega), h.encode_eq]
  have hrest : 24 + bytes.number 16 4 * 24 - (20 + [(0 : UInt8), 0, 0, 0].length) =
      bytes.number 16 4 * 24 := Nat.add_sub_cancel_left ..
  rw [hrest]
  rfl

end Found

end Detection

-- What becomes of some bytes when they are decoded: nothing past their end is read for it, they are
-- refused as corrupt unless they start with a record, and a record that they start with is encoded
-- to the same bytes, but for `width` bytes of padding at `offset`.
structure Record.Decoding {α : Type} [Record α] (read : Cursor (Except ChannelError α))
    (starts : Bytes → Prop) (offset width : Nat) (bytes : Bytes) : Prop where
  within   : read.run' bytes = some ((decode bytes).mapError RecordFault.error)
  accepted : (∃ value : α, decode bytes = .ok value) ↔ starts bytes
  refused  : ¬ starts bytes → ∃ detail, read.run' bytes = some (.error (.corrupt detail))
  encoded  : ∀ value : α, decode bytes = .ok value → encodedLength value ≤ bytes.length ∧
    encode value =
      Bytes.overwrite (bytes.take (encodedLength value)) offset (List.replicate width 0)

theorem Record.refused_of_within {α : Type} [Record α] {read : Cursor (Except ChannelError α)}
    {bytes : Bytes} (hr : read.run' bytes = some ((decode bytes).mapError RecordFault.error))
    (h : ¬ ∃ value : α, decode bytes = .ok value) :
    ∃ detail, read.run' bytes = some (.error (.corrupt detail)) := by
  cases hd : (decode bytes : Except RecordFault α)
  case error fault => exact ⟨fault.detail, by rw [hr, hd]; rfl⟩
  case ok value    => exact absurd ⟨value, hd⟩ h

theorem decoding_follows_format (bytes : Bytes) :
    Record.Decoding Frame.read (fun b => 40 ≤ b.length ∧ b.number 32 1 ≤ 1 ∧ b.number 33 1 ≤ 5 ∧
      b.number 36 4 ≤ b.length - 40) 34 2 bytes ∧
    Record.Decoding Detection.read
      (fun b => 24 ≤ b.length ∧ 24 * b.number 16 4 ≤ b.length - 24) 20 4 bytes := by
  constructor
  case left =>
    exact {
      within   := Frame.run_read bytes
      accepted := Frame.isOk_decode_iff
      refused  := fun h =>
        refused_of_within (Frame.run_read bytes) (mt Frame.isOk_decode_iff.mp h)
      encoded  := fun _ h => (Frame.found_of_decode h).encode_eq_overwrite }
  case right =>
    exact {
      within   := Detection.run_read bytes
      accepted := Detection.isOk_decode_iff
      refused  := fun h =>
        refused_of_within (Detection.run_read bytes) (mt Detection.isOk_decode_iff.mp h)
      encoded  := fun _ h => (Detection.found_of_decode h).encode_eq_overwrite }

-- A frame with the largest times and something in its padding, with other bytes behind it: no
-- device time is read, and the padding is not kept.
theorem decoding_of_largest_times :
    let bytes : Bytes := List.replicate 32 0xFF ++ [1, 4, 7, 7, 2, 0, 0, 0, 8, 9, 0xAA]
    let f : Frame := ⟨⟨[8, 9], 0xFFFFFFFF, 0xFFFFFFFF, .mjpeg, none⟩, .night, 0xFFFFFFFFFFFFFFFF,
      ⟨2 ^ 64 - 1⟩⟩
    Record.decode bytes = .ok f ∧
    f.encode = List.replicate 32 0xFF ++ [1, 4, 0, 0, 2, 0, 0, 0, 8, 9] := by
  intro bytes f
  have hd : Record.decode bytes = .ok f := rfl
  have ⟨_, he⟩ := (decoding_follows_format bytes).1.encoded f hd
  exact ⟨hd, he⟩

end DayNight
