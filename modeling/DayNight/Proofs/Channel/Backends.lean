import DayNight.Proofs.Channel.History
import DayNight.Proofs.Slot.Reading
import DayNight.Proofs.Slot.Shelf

namespace DayNight

namespace Backend

variable {α : Type} {b : Backend α} {capacity : UInt64}

-- Records may be so long, and no longer.
inductive Bounded (capacity : UInt64) : Backend α → Prop
  | inProcess {sequence stored} : Bounded capacity (.inProcess ⟨some capacity, sequence, stored⟩)
  | sharedMemory {sequence slot} : Bounded capacity (.sharedMemory ⟨capacity, sequence⟩ slot)

variable [Record α]

theorem Bounded.publish_of_lt (h : b.Bounded capacity) {value : α}
    (hv : capacity.toNat < Record.encodedLength value) : b.publish value =
      (.error (.payloadTooLarge (Record.encodedLength value) capacity.toNat), b) := by
  cases h
  case inProcess    => simp only [publish, Register.publish, if_pos hv]
  case sharedMemory => simp only [publish, Slot.publish, if_pos hv]

theorem Bounded.publish_of_le (h : b.Bounded capacity) {value : α}
    (hv : Record.encodedLength value ≤ capacity.toNat) :
    ∃ sequence b', b.publish value = (.ok sequence, b') ∧ b'.Bounded capacity := by
  cases h
  case inProcess =>
    simp only [publish, Register.publish, if_neg (Nat.not_lt.mpr hv)]
    exact ⟨_, _, rfl, .inProcess⟩
  case sharedMemory =>
    simp only [publish, Slot.publish, if_neg (Nat.not_lt.mpr hv)]
    exact ⟨_, _, rfl, .sharedMemory⟩

end Backend

namespace Backend

open Channel

variable {α : Type} [Record α] {b : Backend α} {capacity : UInt64}
         {history other : List (Operation α)} {value : α} {e : ChannelError}

-- What a backend has kept of a user's operations.
def Holds (capacity : UInt64) (history : List (Operation α)) : Backend α → Prop
  | inProcess r =>
    r = ⟨some capacity, .ofNat (accepted capacity history).length, newest capacity history⟩
  | sharedMemory handle slot => handle = ⟨capacity, .ofNat (accepted capacity history).length⟩ ∧
    ∃ ps, Slot.Holds capacity slot ps none ∧ ps.length = (accepted capacity history).length ∧
      ps.head? = newest capacity history

-- A publication that is refused touches nothing that is stored.
theorem publish_of_error (h : (b.publish value).1 = .error e) : (b.publish value).2 = b := by
  cases b
  case inProcess r =>
    simp only [publish, Register.publish] at h ⊢
    repeat' split
    all_goals simp_all
  case sharedMemory handle slot =>
    simp only [publish, Slot.publish] at h ⊢
    split
    all_goals simp_all

namespace Holds

theorem bounded (h : b.Holds capacity history) : b.Bounded capacity := by
  cases b
  case inProcess    => exact h ▸ .inProcess
  case sharedMemory => exact h.1 ▸ .sharedMemory

theorem of_accepted (h : b.Holds capacity history)
    (ha : accepted capacity other = accepted capacity history) : b.Holds capacity other := by
  cases b <;> simpa [Holds, ha, newest_of_accepted ha] using h

theorem toNat_sequence (h : b.Holds capacity history)
    (hn : (accepted capacity history).length < 2 ^ 63) :
    b.sequence.toNat = (accepted capacity history).length := by
  have hs : b.sequence = .ofNat (accepted capacity history).length := by
    cases b
    case inProcess    => exact h ▸ rfl
    case sharedMemory => exact h.1 ▸ rfl
  rw [hs]
  exact UInt64.toNat_ofNat_of_lt' (Nat.lt_trans hn (by decide))

variable [Record.Lawful α]

theorem latest (h : b.Holds capacity history) (hn : (accepted capacity history).length < 2 ^ 63) :
    b.latest = newest capacity history := by
  cases b
  case inProcess r =>
    obtain rfl := h
    rfl
  case sharedMemory handle slot =>
    obtain ⟨rfl, ps, hh, hl, hp⟩ := h
    rw [← hp]
    refine hh.latest (hl ▸ hn) fun p hm => ?_
    rw [Record.Lawful.length_encode]
    simpa [fits] using (fits_of_newest (hp.symm.trans hm)).1

theorem publish_of_fits (h : b.Holds capacity history)
    (hn : (accepted capacity history).length + 1 < 2 ^ 63) (hf : fits capacity value)
    (hc : Slot.Carried value) : ∃ b' : Backend α,
      b.publish value = (.ok (.ofNat ((accepted capacity history).length + 1)), b') ∧
      b'.Holds capacity (history ++ [.publish value]) := by
  have hle : Record.encodedLength value ≤ capacity.toNat := by simpa [fits] using hf
  cases b
  case inProcess r =>
    obtain rfl := h
    simp [publish, Register.publish, Nat.not_lt.mpr hle, Holds, accepted_of_fits hf,
      newest_of_fits hf]
  case sharedMemory handle slot =>
    obtain ⟨rfl, ps, hh, hl, hp⟩ := h
    have hs : (UInt64.ofNat ((accepted capacity history).length + 1)).toNat = ps.length + 1 := by
      rw [hl]
      exact Nat.mod_eq_of_lt (by omega)
    have hb := hh.publication (hl ▸ hn) hle hc hs
    refine ⟨.sharedMemory ⟨capacity, .ofNat ((accepted capacity history).length + 1)⟩ _, ?_,
      ?_, _, hb, ?_, ?_⟩
    · simp [publish, Slot.publish, Nat.not_lt.mpr hle]
    · simp [accepted_of_fits hf]
    · simp [accepted_of_fits hf, hl]
    · rw [newest_of_fits hf, List.head?_cons]

omit [Record.Lawful α] in
theorem publish_of_not_fits (h : b.Holds capacity history) (hf : ¬ fits capacity value) :
    b.publish value =
      (.error (.payloadTooLarge (Record.encodedLength value) capacity.toNat), b) :=
  h.bounded.publish_of_lt (by simpa [fits] using hf)

end Holds

end Backend

namespace Channel

variable {α : Type} [Record α] [Record.Lawful α] {c : Channel α} {capacity : UInt64}
         {history : List (Operation α)} {operation : Operation α}

-- A channel of which the user knows everything.
structure Represents (capacity : UInt64) (history : List (Operation α)) (c : Channel α) : Prop where
  backend : c.backend.Holds capacity history
  stats   : c.stats = counts capacity history

namespace Represents

theorem latest (h : c.Represents capacity history)
    (hn : (accepted capacity history).length < 2 ^ 63) :
    c.latest.1 = newest capacity history :=
  h.backend.latest hn

omit [Record.Lawful α] in
-- The next publication has a number.
theorem next (h : c.Represents capacity history)
    (hn : (accepted capacity history).length < 2 ^ 63) :
    c.backend.sequence.toNat + 1 < 2 ^ 64 := by
  rw [h.backend.toNat_sequence hn]
  omega

omit [Record.Lawful α] in
theorem read (h : c.Represents capacity history) (hr : operation.isRead) :
    c.latest.2.Represents capacity (history ++ [operation]) where
  backend := h.backend.of_accepted (accepted_of_none (operation.value_of_isRead hr))
  stats   := by rw [counts_of_read hr, ← h.stats]; rfl

-- Each operation is answered as is due.
theorem step (h : c.Represents capacity history) (operation : Operation α)
    (hn : (accepted capacity (history ++ [operation])).length < 2 ^ 63)
    (hc : ∀ value, operation = .publish value → Slot.Carried value) :
    (c.step operation).1 = due capacity history operation ∧
    (c.step operation).2.Represents capacity (history ++ [operation]) := by
  cases operation
  case publish value =>
    by_cases hf : fits capacity value
    case pos =>
      have hn : (accepted capacity history).length + 1 < 2 ^ 63 := by
        simpa [accepted_of_fits hf] using hn
      have ⟨b, hb, hh⟩ := h.backend.publish_of_fits hn hf (hc value rfl)
      simp only [Channel.step, publish, hb, due, hf, if_true, true_and]
      exact ⟨hh, by rw [counts_of_fits hf, h.stats]⟩
    case neg =>
      simp only [Channel.step, publish, h.backend.publish_of_not_fits hf, due, hf]
      refine ⟨rfl, h.backend.of_accepted (accepted_of_not_fits hf), ?_⟩
      rw [counts_of_not_fits hf, h.stats]
  case latest =>
    rw [accepted_of_none rfl] at hn
    exact ⟨congrArg Answer.newest (h.latest hn), h.read rfl⟩
  case latestSequence =>
    rw [accepted_of_none rfl] at hn
    refine ⟨congrArg Answer.sequence ?_, h.read rfl⟩
    rw [← newest_sequence, ← h.latest hn]
    rfl
  case stats =>
    have ha : accepted capacity (history ++ [.stats]) = accepted capacity history :=
      accepted_of_none rfl
    have hs : c.stats = counts capacity (history ++ [.stats]) := h.stats.trans counts_of_stats.symm
    exact ⟨congrArg Answer.stats h.stats, h.backend.of_accepted ha, hs⟩

end Represents

end Channel

namespace Channel

variable {α : Type} [Record α]

theorem publish_of_error {c : Channel α} {value : α} {e : ChannelError}
    (h : (c.publish value).1 = .error e) : (c.publish value).2 =
      { c with stats := { c.stats with rejected := c.stats.rejected + 1 } } := by
  obtain ⟨backend, stats⟩ := c
  have hb (he : (backend.publish value).1 = .error e) : (backend.publish value).2 = backend :=
    Backend.publish_of_error he
  simp only [publish] at h ⊢
  generalize backend.publish value = answer at h hb ⊢
  obtain ⟨_ | _, backend'⟩ := answer
  case error => rw [show backend' = backend from hb h]
  case ok => cases h

-- A publication keeps to the backend.
theorem publish_inProcess (stats : ChannelStats) (register : Register α) (value : α) :
    ∃ register' stats', (publish ⟨.inProcess register, stats⟩ value).2 =
      ⟨.inProcess register', stats'⟩ := by
  simp only [publish, Backend.publish]
  generalize register.publish value = answer
  obtain ⟨_ | _, register'⟩ := answer
  all_goals exact ⟨_, _, rfl⟩

theorem publish_sharedMemory (stats : ChannelStats) (handle : Slot.Handle) (slot : Slot)
    (value : α) : ∃ handle' slot' stats', (publish ⟨.sharedMemory handle slot, stats⟩ value).2 =
      ⟨.sharedMemory handle' slot', stats'⟩ := by
  simp only [publish, Backend.publish]
  generalize slot.publish handle value = answer
  obtain ⟨_ | _, handle', slot'⟩ := answer
  all_goals exact ⟨_, _, _, rfl⟩

end Channel

namespace Mounted.Site

open Channel

variable {α : Type} [Record α] {s : Site α} {operation : Operation α}

-- A shared channel has its file, and a channel within a process has none.
inductive Sound : Site α → Prop
  | inProcess {register stats shelf} : Sound ⟨⟨⟨.inProcess register, stats⟩, none⟩, shelf⟩
  | sharedMemory {handle slot stats shelf name file} : shelf.get? name = some file →
    Sound ⟨⟨⟨.sharedMemory handle slot, stats⟩, some name⟩, shelf⟩

-- To its only user a channel is as good as what it is at the moment.
theorem Sound.step (h : s.Sound) (hb : s.current.backend.sequence.toNat + 1 < 2 ^ 64)
    (operation : Operation α) : (s.step operation).2.Sound ∧
    (s.step operation).1 = (s.current.step operation).1 ∧
    (s.step operation).2.current = (s.current.step operation).2 := by
  cases h
  case inProcess register stats shelf =>
    cases operation
    case publish value =>
      have ⟨register', stats', hp⟩ := publish_inProcess stats register value
      have hs := publish_of_lt hb value
      simp only [Mounted.current, Option.bind_none, hp, written] at hs
      simp only [Site.step, hs, Site.current, Mounted.current, Channel.step, Option.bind_none, hp,
        and_true]
      exact .inProcess
    all_goals exact ⟨.inProcess, rfl, rfl⟩
  case sharedMemory handle slot stats shelf name file hf =>
    cases operation
    case publish value =>
      have ⟨handle', slot', stats', hp⟩ :=
        publish_sharedMemory stats handle file.memory value
      have hs := publish_of_lt hb value
      simp only [Mounted.current, Option.bind_some, hf, withSlot, hp, written, slot?] at hs
      simp only [Site.step, hs, Site.current, Mounted.current, Channel.step, Option.bind_some, hf,
        withSlot, hp, Shelf.get?_put_self]
      exact ⟨.sharedMemory Shelf.get?_put_self, trivial, rfl⟩
    all_goals
      simp only [Site.step, Mounted.latest, Mounted.latestSequence, Mounted.current, Site.current,
        Channel.step, Channel.latestSequence, Channel.latest, Option.bind_some, hf, withSlot,
        and_true]
      exact .sharedMemory hf

-- A publication that is refused is counted, and that is all.
theorem Sound.refused (h : s.Sound) (hb : s.current.backend.sequence.toNat + 1 < 2 ^ 64)
    {e : ChannelError} (he : (s.step operation).1 = .published (.error e)) :
    (s.step operation).2.current = { s.current with
      stats := { s.current.stats with rejected := s.current.stats.rejected + 1 } } ∧
    ∀ name, (s.step operation).2.shelf.get? name = s.shelf.get? name := by
  have ⟨hs, ha, hc⟩ := h.step hb operation
  rw [he] at ha
  cases operation
  case publish value =>
    have hp : (s.current.publish value).1 = .error e := (Answer.published.inj ha).symm
    have hr := Channel.publish_of_error hp
    refine ⟨hc.trans hr, fun other => ?_⟩
    cases h
    case inProcess register stats shelf =>
      have ⟨register', stats', hp⟩ := publish_inProcess stats register value
      have hs := publish_of_lt hb value
      simp only [Mounted.current, Option.bind_none, hp, written] at hs
      simp only [Site.step, hs]
    case sharedMemory handle slot stats shelf name file hf =>
      simp only [Site.current, Mounted.current, Option.bind_some, hf, withSlot] at hr
      have hs := publish_of_lt hb value
      simp only [Mounted.current, Option.bind_some, hf, withSlot, hr, written, slot?] at hs
      simp only [Site.step, hs]
      by_cases ho : other = name
      case pos => rw [ho, Shelf.get?_put_self, hf, SlotFile.update]
      case neg => exact Shelf.get?_put_of_ne ho
  all_goals cases ha

-- Whatever a user does with it, everything is known of the channel.
theorem Sound.after [Record.Lawful α] {capacity : UInt64} (h : s.Sound)
    (hr : s.current.Represents capacity []) (history : List (Operation α))
    (hn : (offered history).length < 2 ^ 63) (hv : ∀ value ∈ offered history, Slot.Carried value) :
    (s.after history).Sound ∧ (s.after history).current.Represents capacity history := by
  induction history using List.reverseRecOn
  case nil => exact ⟨h, hr⟩
  case append_singleton history operation ih =>
    have ho := offered_concat history operation
    have ⟨hs, hr⟩ := ih (by rw [ho, List.length_append] at hn; omega) fun value hm =>
      hv value (ho ▸ List.mem_append_left _ hm)
    have hb := hr.next (Nat.lt_of_le_of_lt (List.length_filter_le ..)
      (by rw [ho, List.length_append] at hn; omega))
    have ⟨hs, _, hc⟩ := hs.step hb operation
    rw [after_concat]
    refine ⟨hs, hc ▸ (hr.step operation (Nat.lt_of_le_of_lt (List.length_filter_le ..) hn) ?_).2⟩
    rintro value rfl
    exact hv value (by simp [ho, Operation.value?])

-- So every answer is the one that is due, and a refusal is counted only.
theorem Sound.answers [Record.Lawful α] {capacity : UInt64} (h : s.Sound)
    (hr : s.current.Represents capacity []) {before : List (Operation α)} {next : Operation α}
    (hn : (offered (before ++ [next])).length < 2 ^ 63)
    (hv : ∀ value ∈ offered (before ++ [next]), Slot.Carried value) :
    ((s.after before).step next).1 = due capacity before next ∧
    ∀ e, ((s.after before).step next).1 = .published (.error e) →
      ((s.after before).step next).2.current = { (s.after before).current with
        stats := { counts capacity before with
          rejected := (counts capacity before).rejected + 1 } } ∧
      ∀ name, ((s.after before).step next).2.shelf.get? name =
        (s.after before).shelf.get? name := by
  have ho := offered_concat before next
  have hbefore : (offered before).length < 2 ^ 63 := by
    rw [ho, List.length_append] at hn
    omega
  have ⟨hs, hr⟩ := h.after hr before hbefore
    fun value hm => hv value (ho ▸ List.mem_append_left _ hm)
  have hb := hr.next (Nat.lt_of_le_of_lt (List.length_filter_le ..) hbefore)
  have ⟨ha, _⟩ := hr.step next
    (Nat.lt_of_le_of_lt (List.length_filter_le ..) hn) (by
      rintro value rfl
      exact hv value (by simp [ho, Operation.value?]))
  refine ⟨(hs.step hb next).2.1.trans ha, fun e he => ?_⟩
  rw [← hr.stats]
  exact hs.refused hb he

end Mounted.Site

namespace Mounted

open Channel

variable {α : Type} [Record α] {capacity : UInt64} {shelf shelf' : Shelf} {path : String}
         {shared : Mounted α}

theorem inProcess_represents :
    (Site.current ⟨inProcess (α := α) (some capacity), shelf⟩).Represents capacity [] :=
  ⟨rfl, rfl⟩

theorem shared_represents {name : String}
    (hf : shelf.get? name = some (.ofSlot (.empty (Record.kind α) capacity))) :
    (Site.current ⟨⟨.creatorOf (α := α) capacity, some name⟩, shelf⟩).Represents capacity [] := by
  have hroom : capacity.toNat ≤
      (SlotFile.ofSlot (.empty (Record.kind α) capacity)).memory.record.size := by
    rw [SlotFile.ofSlot, Array.size_append, Slot.size_empty]
    exact Nat.le_add_right ..
  simp only [Site.current, Mounted.current, Option.bind_some, hf]
  exact ⟨⟨rfl, [], ⟨hroom, rfl, rfl, nofun⟩, rfl, rfl⟩, rfl⟩

theorem created (h : create shelf path capacity = (.ok shared, shelf')) : ∃ name,
    shared = ⟨.creatorOf capacity, some name⟩ ∧
    shelf'.get? name = some (.ofSlot (.empty (Record.kind α) capacity)) ∧
    64 + capacity.toNat < 2 ^ 64 := by
  simp only [create] at h
  split at h
  case h_1 => cases h
  case h_2 hs =>
    obtain ⟨rfl, rfl, hc⟩ := Shelf.create_ok hs
    cases h
    exact ⟨_, rfl, Shelf.get?_put_self, hc⟩

-- The channel that a configuration asks for, if it comes about.
inductive Configured (capacity : UInt64) : Config.Storage → Mounted α → Prop
  | inProcess : Configured capacity .inProcess (.inProcess (some capacity))
  | sharedMemory {name} : 64 + capacity.toNat < 2 ^ 64 →
    Configured capacity .sharedMemory ⟨.creatorOf capacity, some name⟩

theorem configured_ok {storage : Config.Storage} {directory file : String}
    {lengths : Except Overflow UInt64}
    (h : configured storage directory file lengths shelf = (.ok shared, shelf')) :
    ∃ capacity, lengths = .ok capacity ∧ shared.Configured capacity storage := by
  cases lengths
  case error => cases h
  case ok capacity =>
    refine ⟨capacity, rfl, ?_⟩
    cases storage
    case inProcess => cases h; exact .inProcess
    case sharedMemory =>
      obtain ⟨name, rfl, _, hc⟩ := created h
      exact .sharedMemory hc

end Mounted

theorem Frame.carried_iff {f : Frame} : Slot.Carried f ↔ f.Exact := by
  have hd : Record.decode (f.encode ++ []) = .ok f.reread := f.decode_encode_append []
  rw [List.append_nil] at hd
  rw [Slot.Carried, show Record.decode (Record.encode f) = _ from hd, ← f.reread_eq_iff]
  simp

theorem Detection.carried_iff {d : Detection} : Slot.Carried d ↔ d.Exact := by
  have hd : Record.decode (d.encode ++ []) = .ok d.reread := d.decode_encode_append []
  rw [List.append_nil] at hd
  rw [Slot.Carried, show Record.decode (Record.encode d) = _ from hd, ← d.reread_eq_iff]
  simp

-- Both kinds of channels give every answer that is due, as long as they do not run out of numbers
-- and values come back from their bytes as they were.
theorem backends_agree {α : Type} [Record α] [Record.Lawful α] {capacity : UInt64}
    {shelf shelf' : Shelf} {path : String} {shared : Mounted α} (anywhere : Shelf)
    (hs : Mounted.create shelf path capacity = (.ok shared, shelf'))
    {before : List (Channel.Operation α)} {next : Channel.Operation α}
    (hn : (Channel.offered (before ++ [next])).length < 2 ^ 63)
    (hv : ∀ value ∈ Channel.offered (before ++ [next]), Slot.Carried value) :
    let near := Mounted.Site.after ⟨.inProcess (some capacity), anywhere⟩ before
    let far := Mounted.Site.after ⟨shared, shelf'⟩ before
    let counts := Channel.counts capacity before
    (near.step next).1 = Channel.due capacity before next ∧
    (far.step next).1 = Channel.due capacity before next ∧
    counts.published + counts.rejected = (Channel.offered before).length ∧
    ∀ site, (site = near ∨ site = far) → ∀ e, (site.step next).1 = .published (.error e) →
      (site.step next).2.current = { site.current with
        stats := { counts with rejected := counts.rejected + 1 } } ∧
      ∀ name, (site.step next).2.shelf.get? name = site.shelf.get? name := by
  intro near far counts
  obtain ⟨name, rfl, hf, _⟩ := Mounted.created hs
  have hi : Mounted.Site.Sound ⟨.inProcess (α := α) (some capacity), anywhere⟩ := .inProcess
  have hm : Mounted.Site.Sound ⟨⟨.creatorOf (α := α) capacity, some name⟩, shelf'⟩ :=
    .sharedMemory hf
  have ⟨hna, hnr⟩ := hi.answers Mounted.inProcess_represents hn hv
  have ⟨hfa, hfr⟩ := hm.answers (Mounted.shared_represents hf) hn hv
  refine ⟨hna, hfa, Channel.published_add_rejected, ?_⟩
  rintro site (rfl | rfl)
  · exact hnr
  · exact hfr

-- The second detection has more boxes than there is room for, and the third has none.
theorem backends_agree_after_refusal : ∃ (shared : Mounted Detection) (shelf : Shelf),
    let box : Box := ⟨1, ⟨0⟩, 0, 0, 2, 2⟩
    let before : List (Channel.Operation Detection) := [.publish ⟨[box], ⟨5⟩, 7⟩,
      .publish ⟨[box, box], ⟨6⟩, 8⟩, .latest, .publish ⟨[], ⟨7⟩, 9⟩]
    let near := Mounted.Site.after ⟨.inProcess (some 48), .empty⟩ before
    let far := Mounted.Site.after ⟨shared, shelf⟩ before
    Mounted.create .empty "slot" 48 = (.ok shared, shelf) ∧
    (near.step .latest).1 = .newest (some ⟨2, ⟨[], ⟨7⟩, 9⟩⟩) ∧
    (far.step .latest).1 = .newest (some ⟨2, ⟨[], ⟨7⟩, 9⟩⟩) := by
  have hs : Mounted.create (α := Detection) .empty "slot" 48 =
      (.ok ⟨.creatorOf 48, some "slot"⟩, Shelf.empty.put "slot" (.ofSlot (.empty 2 48))) := by
    rw [Mounted.create, Shelf.create_slot (by decide)]
    rfl
  refine ⟨⟨.creatorOf 48, some "slot"⟩, Shelf.empty.put "slot" (.ofSlot (.empty 2 48)), ?_⟩
  intro box before near far
  have hv : ∀ value ∈ Channel.offered (before ++ [.latest]), Slot.Carried value := by
    simp only [before, Channel.offered, List.cons_append, List.nil_append, List.filterMap_cons,
      Channel.Operation.value?, List.filterMap_nil, List.forall_mem_cons]
    simp only [Detection.carried_iff]
    refine ⟨⟨by decide, by decide⟩, ⟨by decide, by decide⟩, ⟨by decide, by decide⟩, ?_⟩
    exact fun _ hm => absurd hm List.not_mem_nil
  obtain ⟨hn, hf, _⟩ := backends_agree .empty hs (by decide) hv
  exact ⟨hs, hn, hf⟩

end DayNight
