import DayNight.Proofs.Controller.Step

namespace DayNight.Controller

variable {c d base : Controller} {t : Transition}

-- An operation switches to no camera, and asks for a new transition to the other one or for none.
inductive Asks (c : Controller) : Option Transition × Controller → Prop
  | quiet {d : Controller} : d.switchCount = c.switchCount → d.active = c.active →
    d.nextId = c.nextId → (d.pending = c.pending ∨ d.pending = none) → Asks c (none, d)
  | begins {base : Controller} {reason : String} : base.switchCount = c.switchCount →
    base.active = c.active → base.nextId = c.nextId → Asks c (base.begin base.active.other reason)

theorem asks_poll {now : Moment} (ha : base.active = c.active) (hn : base.nextId = c.nextId)
    (hp : base.pending = c.pending ∨ base.pending = none)
    (hs : base.switchCount = c.switchCount := by rfl) : c.Asks (base.poll now) := by
  obtain h | ⟨reason, h⟩ := base.poll_cases now
  · exact h ▸ .quiet hs ha hn hp
  · exact h ▸ .begins hs ha hn

theorem asks_observe (sample : BrightnessSample) : c.Asks (c.observe sample) := by
  obtain ⟨_, _, _, h | h⟩ := c.observe_cases sample
  · exact h ▸ .quiet rfl rfl rfl (.inl rfl)
  · exact h ▸ asks_poll rfl rfl (.inl rfl)

theorem asks_apply {command : SwitchCommand} {now : Moment} {wanted : Option Transition}
    (h : c.apply command now = (.ok wanted, d)) : c.Asks (wanted, d) := by
  cases c.bids command
  case nothing hf => simp [apply_of_error hf] at h
  case auto hv hm =>
    rw [apply_of_auto hv hm] at h
    cases h
    exact .quiet rfl rfl rfl (.inr rfl)
  case stay hm hc =>
    rw [apply_of_manual_active hm hc] at h
    cases h
    exact .quiet rfl rfl rfl (.inr rfl)
  case leave hm hc ha =>
    rw [apply_of_manual hm hc ha, Camera.eq_other_of_ne ha] at h
    cases h
    exact .begins rfl rfl rfl

-- A command that is refused asks for nothing.
theorem asks_command (c : Controller) (command : SwitchCommand) (now : Moment) :
    c.Asks ((c.step (.command command now)).1.wanted?, (c.step (.command command now)).2) := by
  cases hv : command.validate
  case error fault =>
    rw [step, apply_of_error hv]
    exact .quiet rfl rfl rfl (.inl rfl)
  case ok =>
    obtain ⟨_, _, happly, _⟩ := c.apply_of_ok now hv
    rw [step, happly]
    exact asks_apply happly

-- What operations make of the numbers and of the pending transition.
structure Later (c d : Controller) : Prop where
  nextId  : c.nextId ≤ d.nextId
  pending : ∀ t, d.pending = some t → c.pending = some t ∨ (c.nextId ≤ t.id ∧ t.id < d.nextId)

theorem Later.refl : c.Later c where
  nextId  := Nat.le_refl _
  pending := fun _ => .inl

theorem Asks.later {wanted : Option Transition} (h : c.Asks (wanted, d)) : c.Later d := by
  cases h
  case quiet hn hp =>
    refine ⟨Nat.le_of_eq hn.symm, fun t ht => ?_⟩
    cases hp
    case inl hp => exact .inl (hp ▸ ht)
    case inr hp => simp [hp] at ht
  case begins hn =>
    refine ⟨hn ▸ Nat.le_succ _, ?_⟩
    rintro _ ⟨⟩
    exact .inr ⟨Nat.le_of_eq hn.symm, Nat.lt_succ_self _⟩

theorem Asks.active {wanted : Option Transition} (h : c.Asks (wanted, d)) :
    d.active = c.active := by
  cases h <;> assumption

-- What is asked for is pending.
theorem Asks.pending (h : c.Asks (some t, d)) : d.pending = some t := by
  cases h
  rfl

theorem later_complete (t : Transition) : c.Later (c.complete t).2 := by
  cases h : c.isPending t
  case false => rw [complete_of_not_pending h]; exact .refl
  case true =>
    rw [complete_of_pending h]
    exact ⟨Nat.le_refl _, by simp⟩

theorem later_fail (t : Transition) (e : SourceError) (now : Moment) :
    c.Later (c.fail t e now) := by
  cases h : c.isPending t
  case false => rw [fail_of_not_pending h]; exact .refl
  case true =>
    rw [fail_of_pending h]
    exact ⟨Nat.le_refl _, by simp⟩

theorem fail_active (t : Transition) (e : SourceError) (now : Moment) :
    (c.fail t e now).active = c.active := by
  unfold fail
  split <;> rfl

theorem later_setCaptureDegraded (camera : Camera) (degraded : Bool) (error : Option String) :
    c.Later (c.setCaptureDegraded camera degraded error) := by
  have ⟨_, _, h⟩ := c.setCaptureDegraded_frame camera degraded error
  rw [h]
  exact ⟨Nat.le_refl _, fun _ => .inl⟩

theorem setCaptureDegraded_active (camera : Camera) (degraded : Bool) (error : Option String) :
    (c.setCaptureDegraded camera degraded error).active = c.active := by
  have ⟨_, _, h⟩ := c.setCaptureDegraded_frame camera degraded error
  rw [h]

-- A transition that was asked for at some time.
def Issued (c : Controller) (t : Transition) : Prop := t.id < c.nextId

theorem Issued.later (h : c.Issued t) (hl : c.Later d) : d.Issued t :=
  Nat.lt_of_lt_of_le h hl.nextId

theorem Asks.issued (h : c.Asks (some t, d)) : d.Issued t := by
  cases h
  exact Nat.lt_succ_self _

theorem Later.issued_pending (h : c.Later d) (hp : ∀ t, c.pending = some t → c.Issued t) :
    ∀ t, d.pending = some t → d.Issued t := by
  intro t ht
  cases h.pending t ht
  case inl hc => exact (hp t hc).later h
  case inr hd => exact hd.2

theorem isPending_iff : c.isPending t ↔ ∃ p, c.pending = some p ∧ p.id = t.id := by
  simp [isPending]

-- Superseded for once, superseded for all.
theorem Later.not_pending (h : c.Later d) (hi : c.Issued t) (hp : ¬ c.isPending t) :
    ¬ d.isPending t := by
  intro hd
  have ⟨p, hpd, hid⟩ := isPending_iff.mp hd
  cases h.pending p hpd
  case inl hpc => exact hp (isPending_iff.mpr ⟨p, hpc, hid⟩)
  case inr hnew => exact Nat.not_lt.mpr hnew.1 (hid ▸ hi)

end DayNight.Controller
