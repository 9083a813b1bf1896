import DayNight.Proofs.Slot.Reading
import DayNight.Proofs.Slot.Shelf

namespace DayNight

namespace Slot

variable {kind : UInt16} {capacity sequence : UInt64} {records : List Bytes} {record : Bytes}
         {s : Slot} {i : Nat}

-- What the newest of the records that reach beyond `i` has left there.
def lastByte (records : List Bytes) (i : Nat) : UInt8 :=
  ((records.find? fun record => i < record.length).bind (·[i]?)).getD 0

theorem lastByte_cons_of_lt (h : i < record.length) :
    lastByte (record :: records) i = record[i] := by
  rw [lastByte, List.find?_cons_of_pos (by simpa using h), Option.bind_some,
    List.getElem?_eq_getElem h]
  rfl

theorem lastByte_cons_of_le (h : record.length ≤ i) :
    lastByte (record :: records) i = lastByte records i := by
  rw [lastByte, List.find?_cons_of_neg (by simpa using h)]
  rfl

-- The newest record is there as a whole.
theorem map_lastByte :
    (List.range record.length).map (lastByte (record :: records)) = record := by
  refine List.ext_getElem (by simp) fun i hi hi' => ?_
  rw [List.getElem_map, List.getElem_range, lastByte_cons_of_lt hi']

-- The bytes of a slot file with room for records of this length, when these have been published in
-- it, the newest first.
structure Layout (kind : UInt16) (capacity : UInt64) (records : List Bytes) (bytes : Bytes) :
    Prop where
  length       : bytes.length = 64 + capacity.toNat
  identity     : bytes.slice 0 16 = Bytes.ofNat 4 magicNumber.toNat ++
    Bytes.ofNat 2 currentVersion.toNat ++ Bytes.ofNat 2 kind.toNat ++ Bytes.ofNat 8 capacity.toNat
  generation   : bytes.number 16 8 = 2 * records.length
  sequence     : bytes.number 24 8 = records.length
  recordLength : bytes.number 32 8 = (records.head?.map List.length).getD 0
  unused       : bytes.slice 40 24 = List.replicate 24 0
  newest       : ∀ record ∈ records.head?, bytes.slice 64 record.length = record
  record       : ∀ i < capacity.toNat, bytes[64 + i]? = some (lastByte records i)

-- A slot in which these records have been published, and what lies behind its room for them.
structure Written (kind : UInt16) (capacity : UInt64) (records : List Bytes) (s : Slot) : Prop where
  magic        : s.magic = magicNumber
  version      : s.version = currentVersion
  kind         : s.kind = kind
  declared     : s.capacity = capacity
  generation   : s.generation = .ofNat (2 * records.length)
  sequence     : s.sequence = .ofNat records.length
  recordLength : s.recordLength = .ofNat ((records.head?.map List.length).getD 0)
  unused       : s.unused = List.replicate 24 0
  room         : capacity.toNat ≤ s.record.size
  fits         : ∀ record ∈ records, record.length ≤ capacity.toNat
  record       : ∀ i, s.record[i]?.getD 0 = lastByte records i

-- What lies before the record.
def header (s : Slot) : Bytes :=
  Bytes.ofNat 4 s.magic.toNat
    ++ Bytes.ofNat 2 s.version.toNat
    ++ Bytes.ofNat 2 s.kind.toNat
    ++ Bytes.ofNat 8 s.capacity.toNat
    ++ Bytes.ofNat 8 s.generation.toNat
    ++ Bytes.ofNat 8 s.sequence.toNat
    ++ Bytes.ofNat 8 s.recordLength.toNat
    ++ s.unused

-- The generation is even again after a publication.
theorem busy_ofNat (n : Nat) : busy (.ofNat (2 * n)) + 1 = .ofNat (2 * (n + 1)) := by
  have h : (2 * n) ||| 1 = 2 * n + 1 := (Nat.two_pow_add_eq_or_of_lt (by decide : 1 < 2 ^ 1) n).symm
  have hb : busy (.ofNat (2 * n)) = .ofNat (2 * n + 1) := by
    rw [busy, ← h, UInt64.ofNat_or]
    rfl
  rw [hb]
  exact (UInt64.ofNat_add (2 * n + 1) 1).symm

namespace Written

theorem publish (h : s.Written kind capacity records) (hr : record.length ≤ capacity.toNat) :
    (s.applyAll (publicationStores s.generation (.ofNat (records.length + 1)) record)).Written
      kind capacity (record :: records) := by
  have hlength : record.length ≤ s.record.size := Nat.le_trans hr h.room
  have hsize : record.length ≤ s.record.toList.length := by simpa using hlength
  rw [applyAll_publicationStores hlength]
  exact { h with
    generation := by rw [h.generation, busy_ofNat]; rfl
    sequence := rfl
    recordLength := rfl
    room := by
      rw [Bytes.overwrite_zero hsize]
      have := h.room
      simp
      omega
    fits := List.forall_mem_cons.mpr ⟨hr, h.fits⟩
    record := fun i => by
      rw [Bytes.overwrite_zero hsize, List.getElem?_toArray]
      by_cases hi : i < record.length
      case pos =>
        rw [List.getElem?_append_left hi, lastByte_cons_of_lt hi, List.getElem?_eq_getElem hi]
        rfl
      case neg =>
        have hi : record.length ≤ i := Nat.not_lt.mp hi
        rw [List.getElem?_append_right hi, List.getElem?_drop, Nat.add_sub_cancel' hi,
          lastByte_cons_of_le hi, Array.getElem?_toList, h.record] }

theorem header (h : s.Written kind capacity records) : s.header =
    Bytes.ofNat 4 magicNumber.toNat ++ (Bytes.ofNat 2 currentVersion.toNat ++
      (Bytes.ofNat 2 kind.toNat ++ (Bytes.ofNat 8 capacity.toNat ++
        (Bytes.ofNat 8 (2 * records.length % 2 ^ 64) ++ (Bytes.ofNat 8 (records.length % 2 ^ 64) ++
          (Bytes.ofNat 8 ((records.head?.map List.length).getD 0 % 2 ^ 64) ++
            List.replicate 24 0)))))) := by
  rw [Slot.header, h.magic, h.version, h.kind, h.declared, h.generation, h.sequence,
    h.recordLength, h.unused]
  simp only [UInt64.toNat_ofNat', List.append_assoc]

theorem length_header (h : s.Written kind capacity records) : s.header.length = 64 := by
  rw [Slot.header, h.unused]
  simp

theorem found (h : s.Written kind capacity records) (n : Nat) :
    s.found n = (List.range n).map (lastByte records) :=
  List.map_congr_left fun i _ => h.record i

-- A reader gets a copy of the newest record.
theorem read (h : s.Written kind capacity records) (hn : records.length < 2 ^ 63) :
    s.read ⟨capacity, sequence⟩ =
      records.head?.map fun record => ⟨.ofNat records.length, record⟩ := by
  have hg := h.generation
  cases records
  case nil => rw [read_of_empty hg]; rfl
  case cons record records =>
    have hn' : (2 * (record :: records).length) < 2 ^ 64 := by omega
    have hle : record.length ≤ capacity.toNat := h.fits record (List.mem_cons_self ..)
    have hl : s.recordLength.toNat = record.length := by
      rw [h.recordLength]
      exact UInt64.toNat_ofNat_of_lt' (Nat.lt_of_le_of_lt hle capacity.toNat_lt)
    have htoNat : s.generation.toNat = 2 * (record :: records).length := by
      rw [hg]
      exact UInt64.toNat_ofNat_of_lt' hn'
    have h0 : s.generation ≠ 0 := fun h0 => by simp [h0] at htoNat
    have h1 : s.generation % 2 ≠ 1 := fun h1 => by
      have : s.generation.toNat % 2 = 1 := congrArg UInt64.toNat h1
      omega
    rw [read_of_even h0 h1 (UInt64.le_iff_toNat_le.mpr (hl ▸ hle)) (hl ▸ Nat.le_trans hle h.room),
      hl, h.found, map_lastByte, h.sequence]
    rfl

end Written

theorem written_empty : (empty kind capacity).Written kind capacity [] where
  magic := rfl
  version := rfl
  kind := rfl
  declared := rfl
  generation := rfl
  sequence := rfl
  recordLength := rfl
  unused := rfl
  room := Nat.le_of_eq size_empty.symm
  fits := nofun
  record := fun i => by
    simp only [empty, Array.getElem?_replicate]
    split <;> rfl

end Slot

namespace SlotFile

open Slot (Layout lastByte lastByte_cons_of_lt)

variable {kind : UInt16} {capacity : UInt64} {records : List Bytes} {record : Bytes}
         {file : SlotFile}

structure Written (kind : UInt16) (capacity : UInt64) (records : List Bytes) (file : SlotFile) :
    Prop where
  length : file.length = 64 + capacity.toNat
  memory : file.memory.Written kind capacity records

theorem written_ofSlot : (ofSlot (.empty kind capacity)).Written kind capacity [] where
  length := by rw [ofSlot, Slot.fileLength, Slot.size_empty]; rfl
  memory := by
    have he : (Slot.empty kind capacity).Written kind capacity [] := Slot.written_empty
    exact { he with
      room := by
        rw [ofSlot, Array.size_append]
        exact Nat.le_trans he.room (Nat.le_add_right ..)
      record := fun i => by
        have hi := he.record i
        rw [ofSlot, Array.getElem?_append]
        split
        case isTrue => exact hi
        case isFalse =>
          rw [Array.getElem?_replicate]
          split <;> rfl }

namespace Written

theorem publish (h : file.Written kind capacity records) (hr : record.length ≤ capacity.toNat) :
    (file.update (file.memory.applyAll (Slot.publicationStores file.memory.generation
      (.ofNat (records.length + 1)) record))).Written kind capacity (record :: records) :=
  ⟨h.length, h.memory.publish hr⟩

-- Another process can attach, and goes on from the number of the newest record.
theorem attach (h : file.Written kind capacity records) (hc : 64 + capacity.toNat < 2 ^ 64) :
    ∃ s, file.slot? = some s ∧ s.attach kind = .ok ⟨capacity, .ofNat records.length⟩ := by
  obtain ⟨hl, hm⟩ := h
  have hn : ¬ file.length < Slot.headerLength := by
    rw [hl, Slot.headerLength]
    omega
  refine ⟨_, by rw [slot?, if_neg hn], ?_⟩
  rw [← hm.sequence]
  refine Slot.attach_ok hm.magic hm.version hm.kind hm.declared hc ?_
  have hroom := hm.room
  rw [Array.size_extract, hl, Slot.headerLength]
  omega

theorem toBytes (h : file.Written kind capacity records) : file.toBytes =
    file.memory.header ++ (List.range capacity.toNat).map (lastByte records) := by
  obtain ⟨hl, hm⟩ := h
  rw [SlotFile.toBytes, hl, ← hm.length_header, ← hm.found, Slot.found_eq_take hm.room]
  exact List.take_length_add_append _

theorem layout (h : file.Written kind capacity records) (hn : records.length < 2 ^ 63) :
    Layout kind capacity records file.toBytes := by
  have hm := h.memory
  have hb : file.toBytes = _ := h.toBytes.trans (by rw [hm.header])
  have hdrop : file.toBytes.drop 64 = (List.range capacity.toNat).map (lastByte records) := by
    rw [h.toBytes, ← hm.length_header, List.drop_left]
  have hlast : (records.head?.map List.length).getD 0 < 2 ^ 64 := by
    cases records
    case nil => decide
    case cons record records =>
      exact Nat.lt_of_le_of_lt (hm.fits record (List.mem_cons_self ..)) capacity.toNat_lt
  refine {
    length := ?_, identity := ?_, generation := ?_, sequence := ?_, recordLength := ?_,
    unused := ?_, newest := ?_, record := ?_ }
  · rw [h.toBytes, List.length_append, hm.length_header, List.length_map, List.length_range]
  · rw [hb]
    simp [Bytes.slice, List.take_append, List.take_of_length_le, -List.reduceReplicate]
  · rw [hb]
    simp [-List.reduceReplicate]
    omega
  · rw [hb]
    simp [-List.reduceReplicate]
    omega
  · rw [hb]
    simp [-List.reduceReplicate]
    omega
  · rw [hb]
    simp [Bytes.slice, -List.reduceReplicate]
  · intro record hr
    obtain ⟨rest, rfl⟩ := List.head?_eq_some_iff.mp hr
    have hle := hm.fits record (List.mem_cons_self ..)
    rw [Bytes.slice, hdrop, ← List.map_take, List.take_range, Nat.min_eq_left hle,
      Slot.map_lastByte]
  · intro i hi
    rw [← List.getElem?_drop, hdrop]
    simp [hi]

end Written

end SlotFile

end DayNight
