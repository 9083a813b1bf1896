import DayNight.Proofs.Slot.Shelf
import DayNight.Proofs.Slot.Stores
import DayNight.Proofs.Record.RoundTrip

namespace DayNight

namespace Slot

variable {bytes : Bytes} {s : Slot} {kind : UInt16} {handle : Handle}

-- The slot is what the bytes say, field by field.
structure ReadsAs (bytes : Bytes) (s : Slot) : Prop where
  length       : headerLength ≤ bytes.length
  magic        : s.magic.toNat = bytes.number 0 4
  version      : s.version.toNat = bytes.number 4 2
  kind         : s.kind.toNat = bytes.number 6 2
  capacity     : s.capacity.toNat = bytes.number 8 8
  generation   : s.generation.toNat = bytes.number 16 8
  sequence     : s.sequence.toNat = bytes.number 24 8
  recordLength : s.recordLength.toNat = bytes.number 32 8
  unused       : s.unused = bytes.slice 40 24
  record       : s.record.toList = bytes.drop headerLength

theorem readsAs_of_ofBytes? (h : ofBytes? bytes = some s) : ReadsAs bytes s := by
  rw [ofBytes?] at h
  split at h
  case isTrue => cases h
  case isFalse hl =>
    cases h
    exact {
      length       := Nat.not_lt.mp hl
      magic        := UInt32.toNat_ofNat_of_lt' (bytes.number_lt 0 4)
      version      := UInt16.toNat_ofNat_of_lt' (bytes.number_lt 4 2)
      kind         := UInt16.toNat_ofNat_of_lt' (bytes.number_lt 6 2)
      capacity     := UInt64.toNat_ofNat_of_lt' (bytes.number_lt 8 8)
      generation   := UInt64.toNat_ofNat_of_lt' (bytes.number_lt 16 8)
      sequence     := UInt64.toNat_ofNat_of_lt' (bytes.number_lt 24 8)
      recordLength := UInt64.toNat_ofNat_of_lt' (bytes.number_lt 32 8)
      unused       := rfl
      record       := rfl }

theorem ReadsAs.size (h : ReadsAs bytes s) : headerLength + s.record.size = bytes.length := by
  have hl := h.length
  rw [← Array.length_toList, h.record, List.length_drop]
  omega

theorem ReadsAs.toBytes (h : ReadsAs bytes s) : s.toBytes = bytes := by
  have hl : 64 ≤ bytes.length := h.length
  have field {offset width : Nat} (ho : offset + width ≤ 64) :
      Bytes.ofNat width (bytes.number offset width) = bytes.slice offset width :=
    Bytes.ofNat_number (Nat.le_trans ho hl)
  have join (offset width : Nat) :
      bytes.slice 0 offset ++ bytes.slice offset width = bytes.slice 0 (offset + width) := by
    simpa using bytes.slice_append 0 offset width
  rw [Slot.toBytes, h.magic, h.version, h.kind, h.capacity, h.generation, h.sequence,
    h.recordLength, h.unused, h.record, field (by decide), field (by decide), field (by decide),
    field (by decide), field (by decide), field (by decide), field (by decide)]
  rw [join 4 2, join 6 2, join 8 8, join 16 8, join 24 8, join 32 8, join 40 24]
  exact List.take_append_drop 64 bytes

-- The sum of header and capacity is looked at only in a slot for these records.
theorem attach_eq_overflow {o : Overflow} : s.attach kind = .error (.overflow o) ↔
    s.magic = magicNumber ∧ s.version = currentVersion ∧ s.kind = kind ∧
      2 ^ 64 ≤ 64 + s.capacity.toNat ∧ o = .add := by
  constructor
  case mp =>
    intro h
    simp only [attach] at h
    split at h
    case isTrue => cases h
    case isFalse hi =>
      obtain ⟨hm, hv⟩ := not_or.mp hi
      split at h
      case isTrue => cases h
      case isFalse hk =>
        by_cases hc : 64 + s.capacity.toNat < 2 ^ 64
        case pos =>
          rw [(Word.add_of_lt (a := 64) hc).1] at h
          simp only at h
          split at h <;> cases h
        case neg =>
          have hc := Nat.not_lt.mp hc
          rw [Word.add_of_le (a := 64) hc] at h
          cases h
          exact ⟨not_not.mp hm, not_not.mp hv, not_not.mp hk, hc, rfl⟩
  case mpr =>
    rintro ⟨hm, hv, hk, hc, rfl⟩
    simp only [attach, hm, hv, hk, Word.add_of_le (a := 64) hc, ne_eq, not_true_eq_false, or_self,
      if_false]

-- A file of these bytes begins like a slot for records of this kind.
structure HasHeader (kind : UInt16) (bytes : Bytes) : Prop where
  length  : headerLength ≤ bytes.length
  magic   : bytes.number 0 4 = magicNumber.toNat
  version : bytes.number 4 2 = currentVersion.toNat
  kind    : bytes.number 6 2 = kind.toNat

theorem ReadsAs.hasHeader_iff (h : ReadsAs bytes s) : HasHeader kind bytes ↔
    s.magic = magicNumber ∧ s.version = currentVersion ∧ s.kind = kind := by
  rw [← UInt32.toNat_inj, ← UInt16.toNat_inj, ← UInt16.toNat_inj, h.magic, h.version, h.kind]
  exact ⟨fun ⟨_, hm, hv, hk⟩ => ⟨hm, hv, hk⟩, fun ⟨hm, hv, hk⟩ => ⟨h.length, hm, hv, hk⟩⟩

theorem ReadsAs.attach_eq_ok (h : ReadsAs bytes s) : s.attach kind = .ok handle ↔
    HasHeader kind bytes ∧ 64 + bytes.number 8 8 < 2 ^ 64 ∧
      64 + bytes.number 8 8 ≤ bytes.length ∧ handle = ⟨s.capacity, s.sequence⟩ := by
  rw [Slot.attach_eq_ok, h.hasHeader_iff, fileLength, h.size, h.capacity]
  simp only [and_assoc]

theorem ReadsAs.attach_eq_overflow (h : ReadsAs bytes s) :
    s.attach kind = .error (.overflow .add) ↔
      HasHeader kind bytes ∧ 2 ^ 64 ≤ 64 + bytes.number 8 8 := by
  rw [Slot.attach_eq_overflow, h.hasHeader_iff, h.capacity]
  simp only [and_assoc, and_true]

-- The store does not reach beyond the slot. All fields of the header are there.
def Store.Inside (s : Slot) : Store → Prop
  | .recordByte offset _ => offset < s.record.size
  | _                    => True

-- Nor does the reader's next load.
def Reader.Inside (s : Slot) : Reader → Prop
  | .copying _ _ _ (_ + 1) copied => copied.length < s.record.size
  | _                             => True

theorem inside_of_mem_recordStores {store : Store} {offset : Nat} {record : Bytes}
    (h : store ∈ recordStores offset record) (hs : offset + record.length ≤ s.record.size) :
    store.Inside s := by
  induction record generalizing offset
  case nil => cases h
  case cons b record ih =>
    rw [List.length_cons] at hs
    cases h
    case head   => exact Nat.lt_of_lt_of_le (Nat.lt_add_of_pos_right (Nat.succ_pos _)) hs
    case tail h => exact ih h (by omega)

theorem inside_of_mem_publicationStores {store : Store} {generation sequence : UInt64}
    {record : Bytes} (h : store ∈ publicationStores generation sequence record)
    (hs : record.length ≤ s.record.size) : store.Inside s := by
  simp only [publicationStores, List.cons_append, List.nil_append, List.mem_cons,
    List.mem_append, List.not_mem_nil, or_false] at h
  obtain rfl | rfl | rfl | h | rfl := h
  case inr.inr.inr.inl => exact inside_of_mem_recordStores h (by omega)
  all_goals trivial

namespace Reader

variable {capacity : UInt64} {reader : Reader}

-- What is copied and what is left to copy are not longer than the capacity.
def Within (capacity : UInt64) : Reader → Prop
  | copying _ _ _ left copied => copied.length + left ≤ capacity.toNat
  | _                         => True

theorem Within.step (h : reader.Within capacity) (s : Slot) :
    (reader.step capacity s).Within capacity := by
  cases reader
  case copying left copied =>
    cases left
    case succ left =>
      simp only [Within, Reader.step, List.length_cons] at h ⊢
      omega
    case zero => rw [Reader.step]; split <;> trivial
  case starting =>
    simp only [Reader.step]
    repeat' split
    all_goals trivial
  case sawGeneration => trivial
  case sawSequence   =>
    rw [Reader.step]
    split
    case isTrue  => trivial
    case isFalse hl =>
      have hl := UInt64.le_iff_toNat_le.mp (UInt64.not_lt.mp hl)
      rwa [Within, List.length_nil, Nat.zero_add]
  case finished => trivial

-- Whatever a reader finds at its loads, with others writing in between.
theorem within_foldl (capacity : UInt64) (contents : List Slot) :
    (contents.foldl (fun reader s => reader.step capacity s) (starting 0)).Within capacity := by
  induction contents using List.reverseRecOn
  case nil => trivial
  case append_singleton contents s ih =>
    rw [List.foldl_concat]
    exact ih.step s

theorem Within.inside (h : reader.Within capacity) (hs : capacity.toNat ≤ s.record.size) :
    reader.Inside s := by
  cases reader
  case copying left copied =>
    cases left
    case succ => simp only [Within, Inside] at h ⊢; omega
    case zero => trivial
  all_goals trivial

end Reader

end Slot

namespace SlotFile

variable {file : SlotFile} {bytes : Bytes}

-- The bytes that processes see of the file are those of its pages, which cover it.
structure Maps (file : SlotFile) (bytes : Bytes) : Prop where
  memory : Slot.ofBytes? bytes = some file.memory
  covers : file.length ≤ bytes.length

theorem Maps.toBytes (h : file.Maps bytes) : file.toBytes = bytes.take file.length := by
  rw [SlotFile.toBytes, (Slot.readsAs_of_ofBytes? h.memory).toBytes]

theorem Maps.length_toBytes (h : file.Maps bytes) : file.toBytes.length = file.length := by
  rw [h.toBytes, List.length_take, Nat.min_eq_left h.covers]

-- The slot in a file is what its own bytes say.
theorem Maps.slot?_eq (h : file.Maps bytes) : file.slot? = Slot.ofBytes? file.toBytes := by
  have hm := h.memory
  rw [slot?, Slot.ofBytes?, h.length_toBytes, h.toBytes]
  rw [Slot.ofBytes?] at hm
  split at hm
  case isTrue => cases hm
  case isFalse =>
    split
    case isTrue => rfl
    case isFalse hl =>
      have hl : 64 ≤ file.length := Nat.not_lt.mp hl
      rw [← Option.some.inj hm]
      simp (disch := omega) only [Bytes.number_take, Bytes.slice_take, List.extract_toArray,
        List.extract_eq_take_drop, List.drop_take, List.drop_zero, Nat.sub_zero]

theorem mappedLength_le (length : Nat) : length ≤ mappedLength length := by
  rw [mappedLength, pageLength]
  omega

theorem headerLength_le (length : Nat) : Slot.headerLength ≤ mappedLength length := by
  rw [mappedLength, pageLength, Slot.headerLength]
  omega

theorem maps_ofBytes (bytes : Bytes) : (ofBytes bytes).Maps
    (bytes ++ List.replicate (mappedLength bytes.length - bytes.length) 0) := by
  have hl := mappedLength_le bytes.length
  have hh := headerLength_le bytes.length
  generalize hp : bytes ++ List.replicate (mappedLength bytes.length - bytes.length) 0 = pages
  have hlength : pages.length = mappedLength bytes.length := by
    rw [← hp, List.length_append, List.length_replicate]
    omega
  obtain ⟨s, hs⟩ : ∃ s, Slot.ofBytes? pages = some s := by
    rw [Slot.ofBytes?, if_neg (by omega)]
    exact ⟨_, rfl⟩
  refine ⟨?_, hlength ▸ hl⟩
  rw [ofBytes, ofMemory, hp]
  simp [hs]

-- So a file can have any content.
theorem toBytes_ofBytes (bytes : Bytes) : (ofBytes bytes).toBytes = bytes := by
  rw [(maps_ofBytes bytes).toBytes]
  exact List.take_left

end SlotFile

namespace Shelf

variable {shelf : Shelf} {path shown name other : String} {file : SlotFile} {kind : UInt16}
         {handle : Slot.Handle} {s : Slot} {e : ChannelError}

theorem attach_of_slot? (h : shelf.find path = .ok (name, file)) (hs : file.slot? = some s) :
    shelf.attach path shown kind =
      match s.attach kind with
      | .error mismatch => .error (mismatch.error shown)
      | .ok handle => .ok (name, handle, s) := by
  cases ha : s.attach kind <;> simp only [attach, h, hs, ha]

theorem attach_eq_ok (h : shelf.find path = .ok (name, file)) :
    shelf.attach path shown kind = .ok (other, handle, s) ↔
      other = name ∧ file.slot? = some s ∧ s.attach kind = .ok handle := by
  constructor
  case mp =>
    intro ha
    cases hs : file.slot?
    case none => simp [attach, h, hs] at ha
    case some t =>
      rw [attach_of_slot? h hs] at ha
      split at ha
      case h_1    => cases ha
      case h_2 hk => cases ha; exact ⟨rfl, rfl, hk⟩
  case mpr =>
    rintro ⟨rfl, hs, ha⟩
    rw [attach_of_slot? h hs, ha]

theorem attach_eq_overflow (h : shelf.find path = .ok (name, file)) :
    (∃ o, shelf.attach path shown kind = .error (.overflow o)) ↔
      ∃ s, file.slot? = some s ∧ s.attach kind = .error (.overflow .add) := by
  constructor
  case mp =>
    rintro ⟨o, ha⟩
    cases hs : file.slot?
    case none => simp [attach, h, hs, Slot.Mismatch.error] at ha
    case some s =>
      rw [attach_of_slot? h hs] at ha
      refine ⟨s, rfl, ?_⟩
      cases hk : s.attach kind
      case ok => rw [hk] at ha; cases ha
      case error mismatch =>
        cases mismatch
        case overflow o =>
          obtain ⟨_, _, _, _, rfl⟩ := Slot.attach_eq_overflow.mp hk
          rfl
        all_goals
          rw [hk] at ha
          cases ha
  case mpr =>
    rintro ⟨s, hs, ha⟩
    exact ⟨.add, by rw [attach_of_slot? h hs, ha]; rfl⟩

-- What is there and is not accepted is reported as incompatible, unless the program breaks off.
theorem incompatible_of_attach (h : shelf.find path = .ok (name, file))
    (ha : shelf.attach path shown kind = .error e) :
    (∃ o, e = .overflow o) ∨ ∃ detail, e = .incompatible detail := by
  have herror (mismatch : Slot.Mismatch) : (∃ o, mismatch.error shown = .overflow o) ∨
      ∃ detail, mismatch.error shown = .incompatible detail := by
    cases mismatch
    case overflow o => exact .inl ⟨o, rfl⟩
    all_goals exact .inr ⟨_, rfl⟩
  cases hs : file.slot?
  case none =>
    simp only [attach, h, hs] at ha
    cases ha
    exact herror _
  case some =>
    rw [attach_of_slot? h hs] at ha
    split at ha <;> cases ha
    exact herror _

-- A file that holds just this slot.
theorem slot?_of_toBytes (hb : Slot.ofBytes? s.toBytes = some s) :
    (SlotFile.ofBytes s.toBytes).slot? = some s := by
  rw [(SlotFile.maps_ofBytes _).slot?_eq, SlotFile.toBytes_ofBytes, hb]

end Shelf

-- A file is accepted if it has the right header and is as long as it says. If it says a length that
-- does not fit a machine word the program breaks off, and whatever else is not accepted is
-- incompatible. In a file that is accepted all stores and loads are within its bytes.
theorem attach_accepts_iff {α : Type} [Record α] [Record.Lawful α] {shelf : Shelf}
    {path name : String} {file : SlotFile} {pages : Bytes} (shown : String)
    (hf : shelf.find path = .ok (name, file)) (hm : file.Maps pages) :
    let bytes := file.toBytes
    let declared := bytes.number 8 8
    let answer := shelf.attach path shown (Record.kind α)
    ((∃ handle s, answer = .ok (name, handle, s)) ↔ Slot.HasHeader (Record.kind α) bytes ∧
      64 + declared < 2 ^ 64 ∧ 64 + declared ≤ bytes.length) ∧
    ((∃ o, answer = .error (.overflow o)) ↔
      Slot.HasHeader (Record.kind α) bytes ∧ 2 ^ 64 ≤ 64 + declared) ∧
    (∀ e, answer = .error e → (∃ o, e = .overflow o) ∨ ∃ detail, e = .incompatible detail) ∧
    ∀ handle s, answer = .ok (name, handle, s) →
      s.toBytes = bytes ∧ handle.capacity.toNat = declared ∧
      (∀ value : α, Record.encodedLength value ≤ declared → ∀ generation sequence,
        ∀ store ∈ Slot.publicationStores generation sequence (Record.encode value),
          store.Inside s) ∧
      ∀ contents : List Slot, (contents.foldl (fun reader now => reader.step handle.capacity now)
        (Slot.Reader.starting 0)).Inside s := by
  intro bytes declared answer
  have hs : file.slot? = Slot.ofBytes? bytes := hm.slot?_eq
  -- A file with the right header is long enough for one.
  have hread (hh : Slot.HasHeader (Record.kind α) bytes) :
      ∃ s, file.slot? = some s ∧ Slot.ReadsAs bytes s := by
    obtain ⟨s, hb⟩ : ∃ s, Slot.ofBytes? bytes = some s := by
      rw [Slot.ofBytes?, if_neg (Nat.not_lt.mpr hh.length)]
      exact ⟨_, rfl⟩
    exact ⟨s, hs.trans hb, Slot.readsAs_of_ofBytes? hb⟩
  refine ⟨⟨?_, ?_⟩, ⟨?_, ?_⟩, fun e he => Shelf.incompatible_of_attach hf he, fun handle s ha => ?_⟩
  · rintro ⟨handle, s, ha⟩
    have ⟨_, hs', ha⟩ := (Shelf.attach_eq_ok hf).mp ha
    have ⟨hh, hw, hd, _⟩ := (Slot.readsAs_of_ofBytes? (hs ▸ hs')).attach_eq_ok.mp ha
    exact ⟨hh, hw, hd⟩
  · rintro ⟨hh, hw, hd⟩
    obtain ⟨s, hs', hr⟩ := hread hh
    exact ⟨_, s, (Shelf.attach_eq_ok hf).mpr ⟨rfl, hs', hr.attach_eq_ok.mpr ⟨hh, hw, hd, rfl⟩⟩⟩
  · intro ho
    obtain ⟨s, hs', ha⟩ := (Shelf.attach_eq_overflow hf).mp ho
    exact (Slot.readsAs_of_ofBytes? (hs ▸ hs')).attach_eq_overflow.mp ha
  · rintro ⟨hh, hw⟩
    obtain ⟨s, hs', hr⟩ := hread hh
    exact (Shelf.attach_eq_overflow hf).mpr ⟨s, hs', hr.attach_eq_overflow.mpr ⟨hh, hw⟩⟩
  · have ⟨_, hs', ha⟩ := (Shelf.attach_eq_ok hf).mp ha
    have hr := Slot.readsAs_of_ofBytes? (hs ▸ hs')
    obtain ⟨_, _, hd, rfl⟩ := hr.attach_eq_ok.mp ha
    have hroom : declared ≤ s.record.size := by
      have hsize := hr.size
      rw [Slot.headerLength] at hsize
      omega
    refine ⟨hr.toBytes, hr.capacity, fun value hv generation sequence store hm => ?_,
      fun contents => ?_⟩
    · refine Slot.inside_of_mem_publicationStores hm ?_
      rw [Record.Lawful.length_encode]
      exact Nat.le_trans hv hroom
    · exact (Slot.Reader.within_foldl s.capacity contents).inside (hr.capacity ▸ hroom)

-- A slot with room for 24 bytes, and one byte behind it.
theorem attach_accepts_longer_file :
    let content := (Slot.empty 2 24).toBytes ++ [7]
    let shelf := Shelf.empty.put "slot" (.ofBytes content)
    let pages := content ++
      List.replicate (SlotFile.mappedLength content.length - content.length) 0
    shelf.find "slot" = .ok ("slot", .ofBytes content) ∧
    (SlotFile.ofBytes content).Maps pages ∧
    ∃ handle s, shelf.attach "slot" "slot" 2 = .ok ("slot", handle, s) ∧
      handle.capacity.toNat = 24 ∧
      (∀ generation sequence, ∀ store ∈
        Slot.publicationStores generation sequence (Record.encode (⟨[], ⟨5⟩, 7⟩ : Detection)),
          store.Inside s) ∧
      ∀ contents : List Slot, (contents.foldl (fun reader now => reader.step handle.capacity now)
        (Slot.Reader.starting 0)).Inside s := by
  intro content shelf pages
  have hf : shelf.find "slot" = .ok ("slot", .ofBytes content) := Shelf.find_put_slot _
  have hm : (SlotFile.ofBytes content).Maps pages := SlotFile.maps_ofBytes content
  have ⟨ha, _, _, hi⟩ := attach_accepts_iff (α := Detection) "slot" hf hm
  rw [SlotFile.toBytes_ofBytes] at ha hi
  have hd : content.number 8 8 = 24 := by decide
  have hh : Slot.HasHeader 2 content := ⟨by decide, by decide, by decide, by decide⟩
  obtain ⟨handle, s, h⟩ := ha.mpr ⟨hh, by decide, by decide⟩
  have ⟨_, hc, hstores, hloads⟩ := hi handle s h
  exact ⟨hf, hm, handle, s, h, hc.trans hd, hstores _ (by decide), hloads⟩

-- A file that is all header says that a whole machine word of bytes, less the header, follow.
theorem not_every_refusal_is_incompatible : ¬ ∀ (shelf : Shelf) (path name : String)
    (content : Bytes), shelf.find path = .ok (name, .ofBytes content) →
    ∀ e, shelf.attach path path (Record.kind Frame) = .error e →
      ∃ detail, e = .incompatible detail := by
  intro h
  let slot := { Slot.empty 1 0 with capacity := 0xFFFFFFFFFFFFFFC0 }
  have hk : slot.attach 1 = .error (.overflow .add) :=
    Slot.attach_eq_overflow.mpr ⟨rfl, rfl, rfl, by decide, rfl⟩
  have hf := Shelf.find_put_slot (.ofBytes slot.toBytes)
  obtain ⟨o, ha⟩ := (Shelf.attach_eq_overflow hf).mpr
    ⟨slot, Shelf.slot?_of_toBytes (by decide), hk⟩
  obtain ⟨detail, hd⟩ := h _ _ _ _ hf _ ha
  cases hd

end DayNight
