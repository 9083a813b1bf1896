import DayNight.Proofs.Slot.Attaching
import DayNight.Proofs.Slot.Sharing

namespace DayNight

namespace Slot

variable {bytes : Bytes} {s : Slot} {capacity : UInt64} {handle : Handle} {n : Nat}

-- Readers take these bytes for a slot with a record in it, a whole one that is not too long.
structure Offers (capacity : UInt64) (bytes : Bytes) : Prop where
  published : bytes.number 16 8 ≠ 0
  complete  : bytes.number 16 8 % 2 = 0
  fits      : bytes.number 32 8 ≤ capacity.toNat

theorem offers_take (h : headerLength ≤ n) :
    Offers capacity (bytes.take n) ↔ Offers capacity bytes := by
  rw [headerLength] at h
  have hg : Bytes.number (bytes.take n) 16 8 = bytes.number 16 8 := Bytes.number_take (by omega)
  have hl : Bytes.number (bytes.take n) 32 8 = bytes.number 32 8 := Bytes.number_take (by omega)
  constructor <;> rintro ⟨hp, hc, hf⟩
  case mp  => exact ⟨hg ▸ hp, hg ▸ hc, hl ▸ hf⟩
  case mpr => exact ⟨hg.symm ▸ hp, hg.symm ▸ hc, hl.symm ▸ hf⟩

namespace ReadsAs

theorem generation_eq_zero (h : ReadsAs bytes s) :
    s.generation = 0 ↔ bytes.number 16 8 = 0 := by
  rw [← h.generation, ← UInt64.toNat_inj]
  rfl

theorem generation_odd (h : ReadsAs bytes s) :
    s.generation % 2 = 1 ↔ bytes.number 16 8 % 2 = 1 := by
  rw [← h.generation, ← UInt64.toNat_inj, UInt64.toNat_mod]
  rfl

theorem run_of_offers (h : ReadsAs bytes s) (ho : Offers capacity bytes)
    (hc : headerLength + capacity.toNat ≤ bytes.length) :
    Reader.run capacity s s.readSteps (.starting 0) =
      .finished (some ⟨s.sequence, bytes.slice headerLength (bytes.number 32 8)⟩) := by
  have h0 : s.generation ≠ 0 := fun h0 => ho.published (h.generation_eq_zero.mp h0)
  have h1 : s.generation % 2 ≠ 1 := fun h1 => by
    have := h.generation_odd.mp h1
    have := ho.complete
    omega
  have hf : s.recordLength ≤ capacity := UInt64.le_iff_toNat_le.mpr (h.recordLength ▸ ho.fits)
  have hl : s.recordLength.toNat ≤ s.record.size := by
    have hs := h.size
    have hn := ho.fits
    rw [h.recordLength]
    omega
  rw [run_of_even h0 h1 hf hl, found_eq_take hl, h.record, h.recordLength]
  rfl

-- Nothing there, a record that is being written, or one that is too long.
theorem run_of_not_offers (h : ReadsAs bytes s) (ho : ¬ Offers capacity bytes) :
    Reader.run capacity s s.readSteps (.starting 0) = .finished none := by
  by_cases h0 : s.generation = 0
  case pos => exact run_of_empty h0
  case neg =>
    by_cases h1 : s.generation % 2 = 1
    case pos => exact run_of_odd h1
    case neg =>
      refine run_of_oversized h0 h1 (UInt64.not_le.mp fun hc => ho ?_)
      exact {
        published := fun hg => h0 (h.generation_eq_zero.mpr hg)
        complete  := Nat.mod_two_ne_one.mp fun hg => h1 (h.generation_odd.mpr hg)
        fits      := h.recordLength ▸ UInt64.le_iff_toNat_le.mp hc }

theorem run_finishes (h : ReadsAs bytes s) (hc : headerLength + capacity.toNat ≤ bytes.length) :
    ∃ result, Reader.run capacity s s.readSteps (.starting 0) = .finished result := by
  by_cases ho : Offers capacity bytes
  case pos => exact ⟨_, h.run_of_offers ho hc⟩
  case neg => exact ⟨_, h.run_of_not_offers ho⟩

theorem latest_eq_some {α : Type} [Record α] {p : Published α} (h : ReadsAs bytes s)
    (hc : headerLength + handle.capacity.toNat ≤ bytes.length) :
    s.latest handle = some p ↔ Offers handle.capacity bytes ∧
      p.sequence.toNat = bytes.number 24 8 ∧
      Record.decode (bytes.slice headerLength (bytes.number 32 8)) = .ok p.value := by
  by_cases ho : Offers handle.capacity bytes
  case pos =>
    rw [latest, read_of_run (h.run_of_offers ho hc), Option.bind_some, Copy.decode?,
      Option.map_eq_some_iff, ← h.sequence, UInt64.toNat_inj]
    obtain ⟨sequence, value⟩ := p
    cases (Record.decode (bytes.slice headerLength (bytes.number 32 8)) : Except _ α)
    all_goals simp [Except.toOption, ho, eq_comm, and_comm]
  case neg =>
    rw [latest, read_of_run (h.run_of_not_offers ho), Option.bind_none]
    simp [ho]

end ReadsAs

end Slot

namespace SlotFile

variable {file : SlotFile} {pages : Bytes} {s : Slot} {handle : Slot.Handle}

theorem fileLength_of_slot? (h : file.slot? = some s) : s.fileLength ≤ file.length := by
  rw [slot?] at h
  split at h
  case isTrue => cases h
  case isFalse hl =>
    cases h
    rw [Slot.fileLength, Array.size_extract]
    omega

namespace Maps

theorem number_toBytes (hm : file.Maps pages) {offset width : Nat}
    (h : offset + width ≤ file.length) :
    file.toBytes.number offset width = pages.number offset width := by
  rw [hm.toBytes, Bytes.number_take h]

theorem slice_toBytes (hm : file.Maps pages) {offset width : Nat}
    (h : offset + width ≤ file.length) :
    file.toBytes.slice offset width = pages.slice offset width := by
  rw [hm.toBytes, Bytes.slice_take h]

variable {capacity : UInt64}

theorem run_finishes (hm : file.Maps pages) (hc : 64 + capacity.toNat ≤ file.length) :
    ∃ result, Slot.Reader.run capacity file.memory file.memory.readSteps (.starting 0) =
      .finished result :=
  (Slot.readsAs_of_ofBytes? hm.memory).run_finishes (Nat.le_trans hc hm.covers)

-- Readers know the pages of the file, but what they get is in the file itself.
theorem latest_eq_some {α : Type} [Record α] {p : Published α} (hm : file.Maps pages)
    (hc : 64 + handle.capacity.toNat ≤ file.length) :
    file.memory.latest handle = some p ↔ Slot.Offers handle.capacity file.toBytes ∧
      p.sequence.toNat = file.toBytes.number 24 8 ∧
      Record.decode (file.toBytes.slice 64 (file.toBytes.number 32 8)) = .ok p.value := by
  have hh : Slot.headerLength ≤ file.length := Nat.le_trans (Nat.le_add_right ..) hc
  have ho : Slot.Offers handle.capacity file.toBytes ↔ Slot.Offers handle.capacity pages := by
    rw [hm.toBytes, Slot.offers_take hh]
  rw [(Slot.readsAs_of_ofBytes? hm.memory).latest_eq_some (Nat.le_trans hc hm.covers), ho,
    hm.number_toBytes (Nat.le_trans (by decide) hh),
    hm.number_toBytes (Nat.le_trans (by decide) hh)]
  refine and_congr_right fun ho => ?_
  rw [hm.slice_toBytes (Nat.le_trans (Nat.add_le_add_left ho.fits 64) hc)]
  rfl

end Maps

end SlotFile

namespace Mounted

-- How somebody comes by a channel on the file of that name, which has this length at that time.
inductive Gained {α : Type} [Record α] (name : String) : Nat → Mounted α → Prop
  | created {shelf shelf' path capacity m file} :
    create shelf path capacity = (.ok m, shelf') → m.file = some name →
      shelf'.get? name = some file → Gained name file.length m
  | attached {shelf path shown m file} :
    attach shelf path shown = .ok m → m.file = some name →
      shelf.get? name = some file → Gained name file.length m
  -- The shelf may look different by then.
  | used {length m} (shelf : Shelf) (operation : Channel.Operation α) :
    Gained name length m → Gained name length (Site.step ⟨m, shelf⟩ operation).2.mounted

variable {α : Type} {m : Mounted α} {name : String} {handle other : Slot.Handle} {length : Nat}

theorem On.unique (h : m.On name handle) (h' : m.On name other) : other = handle := by
  cases h
  cases h'
  rfl

-- A handle is for no more bytes than the file has behind its header.
structure Room (name : String) (length : Nat) (m : Mounted α) (handle : Slot.Handle) : Prop where
  on   : m.On name handle
  room : 64 + handle.capacity.toNat ≤ length

variable [Record α] {shelf shelf' : Shelf} {path shown : String} {capacity : UInt64}
         {file : SlotFile}

-- What anybody does with a channel leaves it on its file, with room for as much as before.
theorem On.step (h : m.On name handle) (shelf : Shelf) (operation : Channel.Operation α) :
    ∃ sequence, (Site.step ⟨m, shelf⟩ operation).2.mounted.On name ⟨handle.capacity, sequence⟩ := by
  cases h with | @intro slot stats =>
  obtain ⟨now, hc⟩ : ∃ now, (⟨⟨.sharedMemory handle slot, stats⟩, some name⟩ : Mounted α).current
      shelf = ⟨.sharedMemory handle now, stats⟩ := by
    simp only [current, Option.bind_some]
    split
    case h_1 => exact ⟨_, rfl⟩
    case h_2 => exact ⟨_, rfl⟩
  cases operation
  case publish value =>
    simp only [Site.step]
    obtain hp | ⟨_, hp⟩ := publish_cases _ shelf value
    · rw [hp, hc]
      by_cases hv : handle.capacity.toNat < Record.encodedLength value
      case pos =>
        simp only [Channel.publish, Backend.publish, Slot.publish, if_pos hv]
        exact ⟨_, .intro⟩
      case neg =>
        simp only [Channel.publish, Backend.publish, Slot.publish, if_neg hv]
        exact ⟨_, .intro⟩
    · rw [hp]
      exact ⟨_, .intro⟩
  case stats => exact ⟨_, .intro⟩
  all_goals
    simp only [Site.step, Mounted.latest, Mounted.latestSequence, hc]
    exact ⟨_, .intro⟩

theorem On.step_latest (h : m.On name handle) (hf : shelf.get? name = some file) :
    Site.step ⟨m, shelf⟩ .latest =
      (.newest (file.memory.latest handle), ⟨(m.latest shelf).2, shelf⟩) := by
  rw [← h.latest hf]
  rfl

theorem room_of_create (h : create shelf path capacity = (.ok m, shelf')) (hn : m.file = some name)
    (hf : shelf'.get? name = some file) : ∃ handle, m.Room name file.length handle := by
  simp only [create] at h
  split at h
  case h_1 => cases h
  case h_2 hs =>
    cases h
    cases hn
    obtain ⟨rfl, rfl, _⟩ := Shelf.create_ok hs
    cases Shelf.get?_put_self.symm.trans hf
    have hl : (SlotFile.ofSlot (.empty (Record.kind α) capacity)).length = 64 + capacity.toNat := by
      rw [SlotFile.ofSlot, Slot.fileLength, Slot.size_empty]
      rfl
    exact ⟨_, .intro, Nat.le_of_eq hl.symm⟩

theorem room_of_attach (h : attach shelf path shown = .ok m) (hn : m.file = some name)
    (hf : shelf.get? name = some file) : ∃ handle, m.Room name file.length handle := by
  have ⟨_, _, hn', hp⟩ := find_of_attach h
  cases hn.symm.trans hn'
  cases (Shelf.get?_of_find hp).symm.trans hf
  simp only [attach] at h
  split at h
  case h_1 => cases h
  case h_2 handle s ha =>
    cases h
    cases hn
    obtain ⟨_, hs, hk⟩ := (Shelf.attach_eq_ok hp).mp ha
    obtain ⟨_, _, _, _, hr, rfl⟩ := Slot.attach_eq_ok.mp hk
    exact ⟨_, .intro, Nat.le_trans hr (SlotFile.fileLength_of_slot? hs)⟩

theorem Gained.room (h : Gained name length m) : ∃ handle, m.Room name length handle := by
  induction h
  case created h hn hf  => exact room_of_create h hn hf
  case attached h hn hf => exact room_of_attach h hn hf
  case used shelf operation _ ih =>
    have ⟨handle, ho, hr⟩ := ih
    have ⟨sequence, hs⟩ := ho.step shelf operation
    exact ⟨⟨handle.capacity, sequence⟩, hs, hr⟩

end Mounted

open Mounted (Site Gained)

-- A reader comes to an end and leaves the file alone. It gets what the file has to offer, with its
-- number, and nothing if the file has nothing to offer.
theorem reading_follows_content {α : Type} [Record α] {m : Mounted α} {name : String}
    {handle : Slot.Handle} {shelf : Shelf} {file : SlotFile} {pages : Bytes}
    (hg : Gained name file.length m) (ho : m.On name handle) (hf : shelf.get? name = some file)
    (hm : file.Maps pages) :
    let bytes := file.toBytes
    let s := file.memory
    (∃ result, Slot.Reader.run handle.capacity s s.readSteps (.starting 0) = .finished result) ∧
    ∃ answer m', Site.step ⟨m, shelf⟩ .latest = (.newest answer, ⟨m', shelf⟩) ∧
      ∀ p, answer = some p ↔ Slot.Offers handle.capacity bytes ∧
        p.sequence.toNat = bytes.number 24 8 ∧
        Record.decode (bytes.slice 64 (bytes.number 32 8)) = .ok p.value := by
  intro bytes s
  have ⟨_, ho', hroom⟩ := hg.room
  cases ho.unique ho'
  exact ⟨hm.run_finishes hroom, _, _, ho.step_latest hf, fun p => hm.latest_eq_some hroom⟩

-- Somebody has made a file for 30 bytes, and somebody else has left a record of 24 bytes in it,
-- with the end of another one behind it.
theorem reading_follows_content_before_stale_bytes :
    let value : Detection := ⟨[], ⟨5⟩, 7⟩
    let slot : Slot := { Slot.empty 2 30 with
      generation := 4, sequence := 9, recordLength := 24
      record := (Record.encode value ++ [1, 2, 3, 4, 5, 6]).toArray }
    let m : Mounted Detection := ⟨Channel.creatorOf 30, some "slot"⟩
    let file := SlotFile.ofBytes slot.toBytes
    let shelf := Shelf.empty.put "slot" file
    Gained "slot" file.length m ∧ m.On "slot" (.creator 30) ∧ shelf.get? "slot" = some file ∧
    (∃ pages, file.Maps pages) ∧
    ∃ m', Site.step ⟨m, shelf⟩ .latest = (.newest (some ⟨9, value⟩), ⟨m', shelf⟩) := by
  intro value slot m file shelf
  have hc : Mounted.create Shelf.empty "slot" 30 =
      (.ok m, Shelf.empty.put "slot" (.ofSlot (.empty 2 30))) := by
    rw [Mounted.create, Shelf.create_slot (by decide)]
    rfl
  have hl : (SlotFile.ofSlot (.empty 2 30)).length = file.length := by decide
  have hg : Gained "slot" file.length m := hl ▸ .created hc rfl Shelf.get?_put_self
  have hm := SlotFile.maps_ofBytes slot.toBytes
  obtain ⟨_, answer, m', hs, ha⟩ := reading_follows_content hg .intro Shelf.get?_put_self hm
  obtain rfl : answer = some ⟨9, value⟩ := by
    rw [ha, SlotFile.toBytes_ofBytes]
    have hd : slot.toBytes.slice 64 (slot.toBytes.number 32 8) = Record.encode value := by decide
    exact ⟨⟨by decide, by decide, by decide⟩, by decide, by rw [hd]; cbv⟩
  exact ⟨hg, .intro, Shelf.get?_put_self, ⟨_, hm⟩, m', hs⟩

end DayNight
