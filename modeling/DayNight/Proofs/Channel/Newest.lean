import DayNight.Proofs.Channel.Backends
import DayNight.Proofs.Slot.Recovery

namespace DayNight

namespace Backend

variable {α : Type} [Record α] {b : Backend α} {last : Option α} {value : α}

-- The value that was accepted last, if there is one, is all that a backend has to show.
def Shows (last : Option α) : Backend α → Prop
  | inProcess r => r.stored.map (·.value) = last
  | sharedMemory handle slot => handle.capacity.toNat ≤ slot.record.size ∧
    (last = none → slot.generation = 0) ∧
    ∀ value, last = some value → ∃ sequence, slot.Keeps handle.capacity ⟨sequence, value⟩

namespace Shows

theorem publish [Record.Lawful α] (h : b.Shows last) {sequence : UInt64}
    (hp : (b.publish value).1 = .ok sequence) : (b.publish value).2.Shows (some value) := by
  cases b
  case inProcess r =>
    simp only [Backend.publish, Register.publish] at hp ⊢
    split at hp
    case h_2 hc => rfl
    case h_1 hc =>
      split at hp
      case isTrue     => cases hp
      case isFalse hf => rw [if_neg hf]; rfl
  case sharedMemory handle slot =>
    obtain ⟨hroom, _⟩ := h
    simp only [Backend.publish, Slot.publish] at hp ⊢
    split at hp
    case isTrue => cases hp
    case isFalse hf =>
      have hle : (Record.encode value).length ≤ handle.capacity.toNat := by
        rw [Record.Lawful.length_encode]
        exact Nat.not_lt.mp hf
      have hlength := Nat.le_trans hle hroom
      have hfound : (slot.applyAll (Slot.publicationStores slot.generation (handle.sequence + 1)
          (Record.encode value))).found (Record.encode value).length = Record.encode value :=
        Slot.found_publication hlength
      rw [if_neg hf]
      refine ⟨?_, fun hn => absurd hn (Option.some_ne_none _), ?_⟩
      · exact (slot.applyAll_record_size _).symm ▸ hroom
      · rintro _ ⟨⟩
        refine ⟨handle.sequence + 1, ?_, ?_, hfound, hle⟩
        · rw [Slot.applyAll_publicationStores hlength]
        · rw [Slot.applyAll_publicationStores hlength]
          exact Nat.mod_eq_of_lt (Nat.lt_of_le_of_lt hle handle.capacity.toNat_lt)

theorem latest (h : b.Shows last) {p : Published α} (hp : b.latest = some p) :
    ∃ value, last = some value ∧
      (p.value = value ∨ Record.decode (Record.encode value) = .ok p.value) := by
  cases b
  case inProcess r =>
    refine ⟨p.value, ?_, .inl rfl⟩
    rw [← h, show r.stored = some p from hp]
    rfl
  case sharedMemory handle slot =>
    obtain ⟨hroom, hnone, hsome⟩ := h
    cases last
    case none =>
      have hn : slot.latest handle = (none : Option (Published α)) := by
        rw [Slot.latest, Slot.read_of_empty (hnone rfl), Option.bind_none]
      cases hn.symm.trans hp
    case some value =>
      obtain ⟨sequence, hk⟩ := hsome value rfl
      refine ⟨value, rfl, .inr ?_⟩
      -- Otherwise the slot has nothing to show at the moment.
      have h0 : slot.generation ≠ 0 := fun h0 => by
        rw [Backend.latest, Slot.latest, Slot.read_of_empty h0] at hp
        cases hp
      have h1 : slot.generation % 2 ≠ 1 := fun h1 => by
        rw [Backend.latest, Slot.latest, Slot.read_of_odd h1] at hp
        cases hp
      have hd : slot.latest handle = _ := hk.latest h0 h1 hroom
      obtain ⟨found, hf, rfl⟩ := Option.map_eq_some_iff.mp (hd.symm.trans hp)
      cases hr : (Record.decode (Record.encode value) : Except RecordFault α)
      case error e => rw [hr] at hf; cases hf
      case ok v    => rw [hr] at hf; cases hf; rfl

end Shows

end Backend

namespace Channel

variable {α : Type} [Record α] {c : Channel α} {last : Option α}

def Shows (last : Option α) (c : Channel α) : Prop := c.backend.Shows last

-- What is refused is not shown.
theorem Shows.publish [Record.Lawful α] (h : c.Shows last) (value : α) :
    ((∃ sequence, (c.publish value).1 = .ok sequence) ∧ (c.publish value).2.Shows (some value)) ∨
    ((∃ e, (c.publish value).1 = .error e) ∧ (c.publish value).2.Shows last) := by
  have hk {sequence : UInt64} (hp : (c.backend.publish value).1 = .ok sequence) :=
    Backend.Shows.publish h hp
  have he {e : ChannelError} (hp : (c.backend.publish value).1 = .error e) :=
    Backend.publish_of_error hp
  unfold Channel.publish
  generalize c.backend.publish value = answer at hk he ⊢
  obtain ⟨e | sequence, b⟩ := answer
  case error =>
    obtain rfl : b = c.backend := he rfl
    exact .inr ⟨⟨e, rfl⟩, h⟩
  case ok => exact .inl ⟨⟨sequence, rfl⟩, hk rfl⟩

end Channel

-- A new channel has nothing to show.
theorem Mounted.shows_of_configured {α : Type} [Record α] {storage : Config.Storage}
    {directory file : String} {lengths : Except Overflow UInt64} {shelf shelf' : Shelf}
    {m : Mounted α} (h : configured storage directory file lengths shelf = (.ok m, shelf')) :
    m.channel.Shows none := by
  obtain ⟨_, _, hc⟩ := configured_ok h
  cases hc
  case inProcess    => rfl
  case sharedMemory => exact ⟨Nat.le_of_eq Slot.size_empty.symm, fun _ => rfl, nofun⟩

end DayNight
