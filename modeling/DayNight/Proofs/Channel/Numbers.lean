import DayNight.Proofs.Channel.Backends

namespace DayNight

namespace Slot

variable {s : Slot} {capacity : UInt64}

namespace Reader

-- The number that a reader has loaded.
def sequence? : Reader → Option UInt64
  | sawSequence _ _ sequence => some sequence
  | copying _ _ sequence _ _ => some sequence
  | finished result => result.map (·.sequence)
  | _ => none

theorem step_sequence {reader : Reader} {n : UInt64}
    (h : ∀ n, reader.sequence? = some n → n = s.sequence)
    (hn : (reader.step capacity s).sequence? = some n) : n = s.sequence := by
  cases reader
  case starting =>
    simp only [step] at hn
    repeat' split at hn
    all_goals cases hn
  case sawGeneration => cases hn; rfl
  case sawSequence =>
    simp only [step] at hn
    split at hn
    case isTrue  => cases hn
    case isFalse => exact h n hn
  case copying left copied =>
    cases left
    case succ => exact h n hn
    case zero =>
      simp only [step] at hn
      split at hn
      case isTrue  => exact h n hn
      case isFalse => cases hn
  case finished => exact h n hn

theorem run_sequence {reader : Reader} {fuel : Nat} {n : UInt64}
    (h : ∀ n, reader.sequence? = some n → n = s.sequence)
    (hn : (run capacity s fuel reader).sequence? = some n) : n = s.sequence := by
  induction fuel generalizing reader
  case zero => exact h n hn
  case succ fuel ih =>
    rw [run_succ] at hn
    exact ih (fun _ => step_sequence h) hn

end Reader

theorem sequence_of_read {handle : Handle} {copy : Copy} (h : s.read handle = some copy) :
    copy.sequence = s.sequence := by
  have hn : (Reader.run handle.capacity s s.readSteps (.starting 0)).sequence? =
      some copy.sequence := by
    unfold read at h
    split at h
    case h_1 hr => rw [hr, h]; rfl
    case h_2    => cases h
  exact Reader.run_sequence (fun _ hs => by cases hs) hn

theorem sequence_of_latest {α : Type} [Record α] {handle : Handle} {p : Published α}
    (h : s.latest handle = some p) : p.sequence = s.sequence := by
  obtain ⟨copy, hr, hd⟩ := Option.bind_eq_some_iff.mp h
  obtain ⟨_, _, rfl⟩ := Option.map_eq_some_iff.mp hd
  exact sequence_of_read hr

theorem applyAll_recordStores_sequence {offset : Nat} {bytes : Bytes} :
    (s.applyAll (recordStores offset bytes)).sequence = s.sequence := by
  induction bytes generalizing s offset
  case nil => rfl
  case cons b bytes ih => rw [recordStores, applyAll_cons, ih, apply]

theorem applyAll_publicationStores_sequence {g sequence : UInt64} {bytes : Bytes} :
    (s.applyAll (publicationStores g sequence bytes)).sequence = sequence := by
  rw [publicationStores, applyAll_append, applyAll_append, applyAll_cons, applyAll_nil]
  exact applyAll_recordStores_sequence

end Slot

namespace Backend

variable {α : Type} {b : Backend α} {n : Nat}

-- So much was published.
def Numbered (n : Nat) : Backend α → Prop
  | inProcess r => r.sequence = .ofNat n ∧ (n = 0 → r.stored = none) ∧
    ∀ p, r.stored = some p → p.sequence = .ofNat n
  | sharedMemory handle slot => handle.sequence = .ofNat n ∧ (n = 0 → slot.generation = 0) ∧
    slot.sequence = .ofNat n

variable [Record α]

theorem Numbered.publish (h : b.Numbered n) {value : α} {sequence : UInt64}
    (hp : (b.publish value).1 = .ok sequence) :
    sequence = .ofNat (n + 1) ∧ (b.publish value).2.Numbered (n + 1) := by
  have hs : UInt64.ofNat n + 1 = .ofNat (n + 1) := by simp
  cases b
  case inProcess r =>
    have hr := h.1
    have kept {capacity : Option UInt64} : (inProcess (α := α) ⟨capacity, .ofNat (n + 1),
        some ⟨.ofNat (n + 1), value⟩⟩).Numbered (n + 1) := by
      refine ⟨rfl, fun hz => absurd hz n.succ_ne_zero, ?_⟩
      rintro _ ⟨⟩
      rfl
    simp only [Backend.publish, Register.publish, hr, hs] at hp ⊢
    split at hp
    case h_2 hc => cases hp; exact ⟨rfl, kept⟩
    case h_1 hc =>
      split at hp
      case isTrue     => cases hp
      case isFalse hf => cases hp; rw [if_neg hf]; exact ⟨rfl, kept⟩
  case sharedMemory handle slot =>
    have hr := h.1
    simp only [Backend.publish, Slot.publish, hr, hs] at hp ⊢
    split at hp
    case isTrue => cases hp
    case isFalse hf =>
      cases hp
      rw [if_neg hf]
      exact ⟨rfl, rfl, fun hz => absurd hz n.succ_ne_zero,
        Slot.applyAll_publicationStores_sequence⟩

theorem Numbered.latest (h : b.Numbered n) {p : Published α} (hp : b.latest = some p) :
    p.sequence = .ofNat n ∧ 0 < n := by
  cases b
  case inProcess r =>
    have ⟨_, hz, hs⟩ := h
    refine ⟨hs p hp, Nat.pos_of_ne_zero fun h0 => ?_⟩
    cases (hz h0).symm.trans hp
  case sharedMemory handle slot =>
    have ⟨_, hz, hs⟩ := h
    refine ⟨(Slot.sequence_of_latest hp).trans hs, Nat.pos_of_ne_zero fun h0 => ?_⟩
    have hn : slot.latest handle = (none : Option (Published α)) := by
      rw [Slot.latest, Slot.read_of_empty (hz h0), Option.bind_none]
    cases hn.symm.trans hp

end Backend

namespace Channel

variable {α : Type} {c : Channel α} {n : Nat}

def Numbered (n : Nat) (c : Channel α) : Prop := c.backend.Numbered n

-- A channel as it is made.
inductive IsNew [Record α] : Channel α → Prop
  | inProcess {capacity : Option UInt64} : IsNew (.inProcess capacity)
  | shared {capacity : UInt64} : IsNew (.creatorOf capacity)

variable [Record α]

theorem IsNew.numbered (h : c.IsNew) : c.Numbered 0 := by
  cases h
  case inProcess => exact ⟨rfl, fun _ => rfl, nofun⟩
  case shared    => exact ⟨rfl, fun _ => rfl, rfl⟩

theorem Numbered.publish (h : c.Numbered n) (value : α) :
    ((c.publish value).1 = .ok (.ofNat (n + 1)) ∧ (c.publish value).2.Numbered (n + 1)) ∨
    (∃ e, (c.publish value).1 = .error e) ∧ (c.publish value).2.Numbered n := by
  have hk {sequence : UInt64} (hp : (c.backend.publish value).1 = .ok sequence) :=
    Backend.Numbered.publish h hp
  have he {e : ChannelError} (hp : (c.backend.publish value).1 = .error e) :=
    Backend.publish_of_error hp
  unfold Channel.publish
  generalize c.backend.publish value = answer at hk he ⊢
  obtain ⟨e | sequence, b⟩ := answer
  case error =>
    obtain rfl : b = c.backend := he rfl
    exact .inr ⟨⟨e, rfl⟩, h⟩
  case ok =>
    obtain ⟨rfl, hb⟩ := hk rfl
    exact .inl ⟨rfl, hb⟩

end Channel

end DayNight
