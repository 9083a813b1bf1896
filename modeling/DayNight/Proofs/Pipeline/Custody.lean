import DayNight.Proofs.Pipeline.Degraded

namespace DayNight

namespace Claims

variable {cs new : Claims} {c d : Camera}

theorem isClaimed_claim?_of_ne (h : cs.claim? d = some new) (hd : c ≠ d) :
    new.isClaimed c = cs.isClaimed c := by
  unfold claim? at h
  split at h
  case isTrue  => cases h
  case isFalse => cases h; exact PerCamera.get_set_of_ne _ hd _

theorem isClaimed_release_of_ne (hd : c ≠ d) : (cs.release d).isClaimed c = cs.isClaimed c :=
  PerCamera.get_set_of_ne _ hd _

end Claims

namespace Pipeline

-- The camera whose device the control thread has claimed, for a probe or for a switch.
def ControlPhase.claimed? : ControlPhase → Option Camera
  | probeOpening h => some h.camera
  | probeReading h => some h.camera
  | probeClose h _ => some h.camera
  | probeUnclaim c _ => some c
  | opening _ h _ => some h.camera
  | unclaim w _ => some w.transition.target
  | complete _ h => some h.camera
  | moveGate _ h => some h.camera
  | deposit _ h => some h.camera
  | closeStale _ h => some h.camera
  | unclaimStale _ c => some c
  | discard _ h => some h.camera
  | unclaimDiscarded _ c => some c
  | _ => none

-- Whether the control thread gives up a device that it has found in a slot.
def ControlPhase.isStale : ControlPhase → Bool
  | closeStale _ _ => true
  | unclaimStale _ _ => true
  | _ => false

def OwnerPhase.claimed? : OwnerPhase → Option Camera
  | close h _ _ => some h.camera
  | unclaim c _ _ => some c
  | _ => none

theorem ControlPhase.claimed_next (next : AfterSwitch) : next.phase.claimed? = none := by
  cases next <;> rfl

theorem ControlPhase.stale_next (next : AfterSwitch) : next.phase.isStale = false := by
  cases next <;> rfl

-- Where a claim on a camera's device can be.
inductive Place
  -- The camera's own thread.
  | capture
  -- The camera's slot. What the owner takes out of it at the end counts as in it, for he keeps the
  -- slot locked until he has given the device up.
  | slot
  | control
  deriving DecidableEq

namespace State

variable {s t : State} {c d : Camera} {clock : Clock} {signal : Signal}

-- How many claims on the device of a camera are in a place.
def claimsIn (s : State) (c : Camera) : Place → Nat
  | .capture => (s.captures.get c).claims
  | .slot => (s.handoff.get c).isSome.toNat + (decide (s.owner.claimed? = some c)).toNat
  | .control => (decide (s.control.phase.claimed? = some c)).toNat

-- The places of all claims on the device, each as often as there is a claim in it.
def holders (s : State) (c : Camera) : List Place :=
  [.capture, .slot, .control].flatMap fun place => List.replicate (s.claimsIn c place) place

theorem length_holders : (s.holders c).length =
    s.claimsIn c .capture + s.claimsIn c .slot + s.claimsIn c .control := by
  simp [holders, Nat.add_assoc]

-- The claims on the device of a camera are accounted for, and its handles are where they belong.
structure Custody (s : State) (c : Camera) : Prop where
  counted  : (s.holders c).length = (s.claims.isClaimed c).toNat
  handles  : ∀ h ∈ (s.captures.get c).handles, h.camera = c
  slot     : ∀ h, s.handoff.get c = some h → h.camera = c
  replaces : (s.captures.get c).phase.replaces = false

namespace Custody

variable {own : CaptureThread} {handle handed : Handle}

theorem congr (h : s.Custody c) (hx : t.captures.get c = s.captures.get c := by rfl)
    (hh : t.handoff.get c = s.handoff.get c := by rfl)
    (hc : t.claims.isClaimed c = s.claims.isClaimed c := by rfl)
    (ho : t.owner.claimed? = some c ↔ s.owner.claimed? = some c := by exact .rfl)
    (hp : t.control.phase.claimed? = some c ↔ s.control.phase.claimed? = some c := by exact .rfl) :
    t.Custody c where
  counted  := by
    have hk := h.counted
    simp only [length_holders, claimsIn] at hk ⊢
    simpa only [hx, hh, hc, ho, hp] using hk
  handles  := hx ▸ h.handles
  slot     := hh ▸ h.slot
  replaces := hx ▸ h.replaces

-- A step that has to do with one camera only.
theorem all (h : ∀ c, s.Custody c) (ht : t.Custody d)
    (hx : ∀ c ≠ d, t.captures.get c = s.captures.get c := by exact fun _ _ => rfl)
    (hh : ∀ c ≠ d, t.handoff.get c = s.handoff.get c := by exact fun _ _ => rfl)
    (hc : ∀ c ≠ d, t.claims.isClaimed c = s.claims.isClaimed c := by exact fun _ _ => rfl)
    (ho : ∀ c ≠ d, (t.owner.claimed? = some c ↔ s.owner.claimed? = some c) := by
      exact fun _ _ => .rfl)
    (hp : ∀ c ≠ d, (t.control.phase.claimed? = some c ↔ s.control.phase.claimed? = some c) := by
      exact fun _ _ => .rfl) : ∀ c, t.Custody c := by
  intro c
  by_cases hd : c = d
  case pos => exact hd ▸ ht
  case neg => exact (h c).congr (hx c hd) (hh c hd) (hc c hd) (ho c hd) (hp c hd)

-- The claim is with the device in the slot, if there is one, so the thread has none.
theorem lease_of_handed (h : s.Custody c)
    (hs : s.handoff.get c = some handed) : (s.captures.get c).lease = none := by
  have hb := h.counted
  have hl := (s.claims.isClaimed c).toNat_le
  simp only [length_holders, claimsIn, hs, Option.isSome_some, Bool.toNat_true,
    CaptureThread.claims] at hb
  cases hc : (s.captures.get c).lease
  case none   => rfl
  case some _ => simp only [hc, Option.isSome_some, Bool.toNat_true] at hb; omega

-- While the control thread has the claim on a device, nothing is in the slot.
theorem slot_of_claimed (h : s.Custody c) (hp : s.control.phase.claimed? = some c) :
    s.handoff.get c = none := by
  have hb := h.counted
  have hn := (s.claims.isClaimed c).toNat_le
  simp only [length_holders, claimsIn, hp, decide_true, Bool.toNat_true] at hb
  cases hs : s.handoff.get c
  case none   => rfl
  case some _ => simp only [hs, Option.isSome_some, Bool.toNat_true] at hb; omega

theorem claims_le (h : s.Custody c) : (s.captures.get c).claims ≤ 1 := by
  have hk := h.counted
  have hb := (s.claims.isClaimed c).toNat_le
  simp only [length_holders, claimsIn] at hk
  omega

-- The camera's own thread goes on with the claim that it has, or without one.
theorem keeps (h : s.Custody c) (hk : (s.captures.get c).Keeps own)
    (hx : t.captures.get c = own) (hh : t.handoff.get c = s.handoff.get c := by rfl)
    (hc : t.claims.isClaimed c = s.claims.isClaimed c := by rfl)
    (ho : t.owner.claimed? = s.owner.claimed? := by rfl)
    (hp : t.control.phase.claimed? = s.control.phase.claimed? := by rfl) : t.Custody c where
  counted  := by
    have hn := hk.claims h.claims_le
    have hb := h.counted
    simp only [length_holders, claimsIn] at hb ⊢
    rw [hx, hh, hc, ho, hp, hn, hb]
  handles  := fun g hg => h.handles g (hk.handles (hx ▸ hg))
  slot     := hh ▸ h.slot
  replaces := by
    rw [hx, Bool.eq_false_iff]
    exact fun hr => Bool.eq_false_iff.mp h.replaces (hk.replaces hr)

-- It takes the device out of its slot, where the claim was.
theorem takes (h : s.Custody c) (hs : s.handoff.get c = some handed)
    (hk : (s.captures.get c).Gains handed own) (hx : t.captures.get c = own)
    (hh : t.handoff.get c = none) (hc : t.claims = s.claims := by rfl)
    (ho : t.owner = s.owner := by rfl) (hp : t.control = s.control := by rfl) : t.Custody c where
  counted  := by
    have hn := hk.claims
    have hb := h.counted
    simp only [length_holders, claimsIn, hs, Option.isSome_some] at hb
    simp only [length_holders, claimsIn, hx, hh, hc, ho, hp, Option.isSome_none, Bool.toNat_false]
    rw [← hb, hn, Bool.toNat_true]
    omega
  handles  := by
    intro g hg
    obtain rfl | hg := List.mem_cons.mp (hk.handles (hx ▸ hg))
    · exact h.slot g hs
    · exact h.handles g hg
  slot     := fun _ hg => nomatch hh.symm.trans hg
  replaces := by
    rw [hx, Bool.eq_false_iff]
    intro hr
    have hl := hk.replaces hr
    rw [h.lease_of_handed hs] at hl
    cases hl

theorem claims (h : s.Custody c)
    (hk : (s.captures.get c).Gains handle own) (hg : handle.camera = c)
    (hr : own.phase.replaces = false) (hf : s.claims.isClaimed c = false)
    (hx : t.captures.get c = own) (hc : t.claims.isClaimed c = true)
    (hh : t.handoff.get c = s.handoff.get c := by rfl)
    (ho : t.owner = s.owner := by rfl) (hp : t.control = s.control := by rfl) : t.Custody c where
  counted  := by
    have hn := hk.claims
    have hb := h.counted
    simp only [length_holders, claimsIn, hf, Bool.toNat_false] at hb
    simp only [length_holders, claimsIn, hx, hh, hc, ho, hp, hn, Bool.toNat_true]
    omega
  handles  := by
    intro other ho
    obtain rfl | ho := List.mem_cons.mp (hk.handles (hx ▸ ho))
    · exact hg
    · exact h.handles other ho
  slot     := hh ▸ h.slot
  replaces := hx ▸ hr

theorem unclaims (h : s.Custody c) (hk : (s.captures.get c).Loses own)
    (hx : t.captures.get c = own) (hc : t.claims.isClaimed c = false)
    (hh : t.handoff.get c = s.handoff.get c := by rfl)
    (ho : t.owner = s.owner := by rfl) (hp : t.control = s.control := by rfl) : t.Custody c where
  counted  := by
    have hn := hk.claims
    have hb := h.counted
    have hl := (s.claims.isClaimed c).toNat_le
    simp only [length_holders, claimsIn] at hb
    simp only [length_holders, claimsIn, hx, hh, hc, ho, hp, Bool.toNat_false]
    omega
  handles  := fun g hg => h.handles g (hk.handles (hx ▸ hg))
  slot     := hh ▸ h.slot
  replaces := hx ▸ hk.replaces

end Custody

-- Besides, a switch has opened the device of its target, and no device makes way for another.
structure Owned (s : State) : Prop where
  custody : ∀ c, s.Custody c
  leases  : ∀ w h, s.control.phase.lease? = some (w, h) → h.camera = w.transition.target
  stale   : s.control.phase.isStale = false

namespace Owned

variable {own : CaptureThread} {handle : Handle} {w : Switch}

theorem new {jpeg : JpegDecoder} {config : Config} {frames : FrameChannel}
    {detections : DetectionChannel} :
    Owned (.new jpeg config frames detections) where
  custody c := by
    cases c
    all_goals exact ⟨rfl, nofun, nofun, rfl⟩
  leases    := nofun
  stale     := rfl

theorem congr (h : Owned s) (hx : t.captures = s.captures := by rfl)
    (hh : t.handoff = s.handoff := by rfl) (hc : t.claims = s.claims := by rfl)
    (ho : t.owner.claimed? = s.owner.claimed? := by rfl)
    (hp : t.control.phase = s.control.phase := by rfl) : Owned t where
  custody c := (h.custody c).congr (by rw [hx]) (by rw [hh]) (by rw [hc]) (by rw [ho]) (by rw [hp])
  leases    := hp ▸ h.leases
  stale     := hp ▸ h.stale

-- A step of one camera's thread.
theorem ofCapture (h : Owned s) (ht : t.Custody c)
    (hx : t.captures = s.captures.set c own)
    (hh : ∀ d ≠ c, t.handoff.get d = s.handoff.get d := by exact fun _ _ => rfl)
    (hc : ∀ d ≠ c, t.claims.isClaimed d = s.claims.isClaimed d := by exact fun _ _ => rfl)
    (ho : t.owner = s.owner := by rfl) (hp : t.control = s.control := by rfl) : Owned t where
  custody := .all h.custody ht (fun _ hd => hx ▸ PerCamera.get_set_of_ne _ hd _) hh hc
    (by simp [ho]) (by simp [hp])
  leases  := hp ▸ h.leases
  stale   := hp ▸ h.stale

theorem capture (h : Owned s) (he : s.CaptureEffect c t) : Owned t := by
  have hc := h.custody c
  have hx := captures_setCapture (c := c)
  cases he
  case takes hs hk _ =>
    exact h.ofCapture (hc.takes hs hk (hx ..) (PerCamera.get_set_self ..)) rfl
      fun _ hd => PerCamera.get_set_of_ne _ hd _
  case claims hk hr _ hs =>
    have ⟨hf, ht⟩ := Claims.isClaimed_of_claim? hs
    exact h.ofCapture (hc.claims hk rfl hr hf (hx ..) ht) rfl (fun _ _ => rfl)
      fun _ hd => Claims.isClaimed_claim?_of_ne hs hd
  case unclaims hk _ =>
    exact h.ofCapture (hc.unclaims hk (hx ..) (s.claims.isClaimed_release c)) rfl
      (fun _ _ => rfl) fun _ hd => Claims.isClaimed_release_of_ne hd
  all_goals exact h.ofCapture (hc.keeps ‹_› (hx ..)) rfl

-- The control thread goes on with the claim that it has, or without one.
theorem goesOn (h : Owned s) {p : ControlPhase} (hp : s.control.phase = p)
    (hk : t.control.phase.claimed? = p.claimed? := by rfl)
    (hl : ∀ w handle, t.control.phase.lease? = some (w, handle) →
      p.lease? = some (w, handle) := by rintro _ _ ⟨⟩)
    (hz : t.control.phase.isStale = false := by rfl)
    (hx : t.captures = s.captures := by rfl) (hh : t.handoff = s.handoff := by rfl)
    (hc : t.claims = s.claims := by rfl) (ho : t.owner = s.owner := by rfl) : Owned t where
  custody c := by
    refine (h.custody c).congr (by rw [hx]) (by rw [hh]) (by rw [hc]) (by rw [ho]) ?_
    rw [hk, hp]
  leases    := fun w handle hw => h.leases w handle (hp ▸ hl w handle hw)
  stale     := hz

theorem done (h : Owned s) {p : ControlPhase} {next : AfterSwitch}
    (hp : s.control.phase = p) (hn : p.claimed? = none := by rfl)
    (ht : t.control.phase = next.phase := by rfl)
    (hx : t.captures = s.captures := by rfl) (hh : t.handoff = s.handoff := by rfl)
    (hc : t.claims = s.claims := by rfl) (ho : t.owner = s.owner := by rfl) : Owned t := by
  refine h.goesOn hp ?_ (fun _ _ hl => ?_) ?_ hx hh hc ho
  · rw [ht, hn, ControlPhase.claimed_next]
  · rw [ht, ControlPhase.lease_next] at hl
    cases hl
  · rw [ht, ControlPhase.stale_next]

theorem decides (h : Owned s) {p : ControlPhase} {answer : Option Transition}
    {next : AfterSwitch} (hp : s.control.phase = p) (hn : p.claimed? = none := by rfl)
    (ht : t.control.phase = switchOr answer next := by rfl)
    (hx : t.captures = s.captures := by rfl) (hh : t.handoff = s.handoff := by rfl)
    (hc : t.claims = s.claims := by rfl) (ho : t.owner = s.owner := by rfl) : Owned t := by
  cases answer
  case none => exact h.done hp hn ht hx hh hc ho
  case some =>
    refine h.goesOn hp ?_ (by rw [ht]; nofun) (by rw [ht]; rfl) hx hh hc ho
    rw [ht, hn]
    rfl

theorem claims (h : Owned s) {p : ControlPhase} {claims : Claims}
    (hp : s.control.phase = p) (hs : s.claims.claim? d = some claims)
    (ht : t.claims = claims := by rfl) (hn : p.claimed? = none := by rfl)
    (hk : t.control.phase.claimed? = some d := by rfl)
    (hl : ∀ w handle, t.control.phase.lease? = some (w, handle) →
      handle.camera = w.transition.target := by rintro _ _ ⟨⟩)
    (hz : t.control.phase.isStale = false := by rfl)
    (hx : t.captures = s.captures := by rfl) (hh : t.handoff = s.handoff := by rfl)
    (ho : t.owner = s.owner := by rfl) : Owned t where
  custody := by
    have hc := h.custody d
    have ⟨hf, hg⟩ := Claims.isClaimed_of_claim? hs
    refine .all h.custody ⟨?_, hx ▸ hc.handles, hh ▸ hc.slot, hx ▸ hc.replaces⟩ (by simp [hx])
      (by simp [hh]) (fun _ hd => ht ▸ Claims.isClaimed_claim?_of_ne hs hd) (by simp [ho])
      fun _ hd => by simp [hk, hp, hn, hd.symm]
    have hb := hc.counted
    simp only [length_holders, claimsIn, hp, hn, hf, Bool.toNat_false] at hb
    simp only [length_holders, claimsIn, hx, hh, ho, hk, ht, hg, decide_true, Bool.toNat_true]
    omega
  leases  := hl
  stale   := hz

theorem unclaims (h : Owned s) {p : ControlPhase} (hp : s.control.phase = p)
    (hs : p.claimed? = some d := by rfl) (ht : t.claims = s.claims.release d := by rfl)
    (hk : t.control.phase.claimed? = none := by rfl)
    (hl : t.control.phase.lease? = none := by rfl)
    (hz : t.control.phase.isStale = false := by rfl)
    (hx : t.captures = s.captures := by rfl) (hh : t.handoff = s.handoff := by rfl)
    (ho : t.owner = s.owner := by rfl) : Owned t where
  custody := by
    have hc := h.custody d
    have hg : t.claims.isClaimed d = false := ht ▸ s.claims.isClaimed_release d
    refine .all h.custody ⟨?_, hx ▸ hc.handles, hh ▸ hc.slot, hx ▸ hc.replaces⟩ (by simp [hx])
      (by simp [hh]) (fun _ hd => ht ▸ Claims.isClaimed_release_of_ne hd) (by simp [ho])
      fun _ hd => by simp [hk, hp, hs, hd.symm]
    have hb := hc.counted
    have hn := (s.claims.isClaimed d).toNat_le
    simp only [length_holders, claimsIn, hp, hs, decide_true, Bool.toNat_true] at hb
    simp only [length_holders, claimsIn, hx, hh, ho, hk, hg, reduceCtorEq, decide_false,
      Bool.toNat_false]
    omega
  leases  := fun _ _ hw => nomatch hl.symm.trans hw
  stale   := hz

theorem slot_of_deposit (h : Owned s)
    (hp : s.control.phase = .deposit w handle) : s.handoff.get w.transition.target = none := by
  have hg : handle.camera = w.transition.target := h.leases w handle (hp ▸ rfl)
  exact (h.custody _).slot_of_claimed (by rw [hp, ← hg]; rfl)

-- The control thread leaves the device in the slot.
theorem deposits (h : Owned s)
    (hp : s.control.phase = .deposit w handle) : Owned ({ s with
      handoff := s.handoff.set w.transition.target (some handle) }.setControl (.unlock w)) where
  custody := by
    have hc := h.custody w.transition.target
    have hg : handle.camera = w.transition.target := h.leases w handle (hp ▸ rfl)
    have hs := h.slot_of_deposit hp
    have hq : s.control.phase.claimed? = some w.transition.target := by rw [hp, ← hg]; rfl
    have hn : (ControlPhase.unlock w).claimed? = none := rfl
    refine .all h.custody ⟨?_, hc.handles, fun other ho => ?_, hc.replaces⟩ (fun _ _ => rfl)
      (fun _ hd => PerCamera.get_set_of_ne _ hd _) (fun _ _ => rfl) (fun _ _ => .rfl)
      fun _ hd => by simp [setControl, hn, hq, hd.symm]
    · have hb := hc.counted
      simp only [length_holders, claimsIn, hs, hq, decide_true, Option.isSome_none,
        Bool.toNat_false, Bool.toNat_true] at hb
      simp only [length_holders, claimsIn, setControl, hn, PerCamera.get_set_self,
        Option.isSome_some, reduceCtorEq, decide_false, Bool.toNat_false, Bool.toNat_true]
      omega
    · obtain rfl := Option.some.inj ((PerCamera.get_set_self ..).symm.trans ho)
      exact hg
  leases  := nofun
  stale   := rfl

theorem clears (h : Owned s) {left : List Camera} {late : List Thread}
    (ho : s.owner = .clearing (c :: left) late) (hs : s.handoff.get c = some handle) :
    Owned { s with handoff := s.handoff.set c none, owner := .close handle left late } where
  custody := by
    have hc := h.custody c
    have hn : s.owner.claimed? = none := by rw [ho]; rfl
    have hk : (OwnerPhase.close handle left late).claimed? = some c :=
      congrArg some (hc.slot handle hs)
    refine .all h.custody ⟨?_, hc.handles, fun _ ho => ?_, hc.replaces⟩ (fun _ _ => rfl)
      (fun _ hd => PerCamera.get_set_of_ne _ hd _) (fun _ _ => rfl)
      fun _ hd => by simp [hn, hk, hd.symm]
    · have hb := hc.counted
      simp only [length_holders, claimsIn, hs, hn, reduceCtorEq, decide_false, Option.isSome_some,
        Bool.toNat_false, Bool.toNat_true] at hb
      simp only [length_holders, claimsIn, hk, PerCamera.get_set_self, decide_true,
        Option.isSome_none, Bool.toNat_false, Bool.toNat_true]
      omega
    · cases (PerCamera.get_set_self ..).symm.trans ho
  leases  := h.leases
  stale   := h.stale

theorem givesUp (h : Owned s) {left : List Camera} {late : List Thread}
    (ho : s.owner = .unclaim c left late) :
    Owned { s with claims := s.claims.release c, owner := .clearing left late } where
  custody := by
    have hc := h.custody c
    have hn : s.owner.claimed? = some c := by rw [ho]; rfl
    have hk : (OwnerPhase.clearing left late).claimed? = none := rfl
    refine .all h.custody ⟨?_, hc.handles, hc.slot, hc.replaces⟩ (fun _ _ => rfl)
      (fun _ _ => rfl) (fun _ hd => Claims.isClaimed_release_of_ne hd)
      fun _ hd => by simp [hn, hk, hd.symm]
    have hb := hc.counted
    have hl := (s.claims.isClaimed c).toNat_le
    simp only [length_holders, claimsIn, hn, decide_true, Bool.toNat_true] at hb
    simp only [length_holders, claimsIn, hk, s.claims.isClaimed_release, reduceCtorEq,
      decide_false, Bool.toNat_false]
    omega
  leases  := h.leases
  stale   := h.stale

end Owned

theorem ControlStep.owned (hs : s.ControlStep clock t) (h : Owned s) : Owned t := by
  cases hs
  case drops hp _ | skips hp _ _ | reports hp _ | unlocks hp => exact h.done hp
  case retries hp _ | samples hp _ => exact h.decides hp
  case probes hp hc => exact h.claims hp hc
  case claims hp hc =>
    refine h.claims hp hc rfl rfl rfl ?_
    rintro _ _ ⟨⟩
    rfl
  case probeMisses hp | probeSees hp | unclaims hp => exact h.unclaims hp
  case discardUnclaims hp =>
    exact h.unclaims hp rfl rfl (ControlPhase.claimed_next _) (ControlPhase.lease_next _)
      (ControlPhase.stale_next _)
  case opens hp | accepts hp _ _ | loses hp _ _ | moves hp => exact h.goesOn hp rfl fun _ _ hl => hl
  case fails w handle _ _ hp | late w handle _ hp =>
    have hg : handle.camera = w.transition.target := h.leases w handle (hp ▸ rfl)
    exact h.goesOn hp (congrArg some hg.symm)
  case leaves hp _ => exact h.deposits hp
  -- The slot is empty, so there is nothing stale to give up.
  case replaces hp hs      => cases (h.slot_of_deposit hp).symm.trans hs
  case staleCloses hp | staleUnclaims hp => cases hp ▸ h.stale
  all_goals exact h.goesOn ‹s.control.phase = _›

theorem OwnerStep.owned (hs : s.OwnerStep t) (h : Owned s) : Owned t := by
  cases hs
  case takes ho hh    => exact h.clears ho hh
  case unclaims ho    => exact h.givesUp ho
  all_goals exact h.congr rfl rfl rfl (by rw [‹s.owner = _›]; rfl)

-- Before the start no thread has a claim, and the start gives none to any.
theorem Owned.start (h : Owned s) (hi : InStep s) (hw : s.Sound)
    (hs : s.start.toOption = some t) : Owned t := by
  unfold State.start at hs
  split at hs
  case h_2 => cases hs
  case h_1 ho =>
    cases hs
    refine ⟨fun c => ?_, nofun, rfl⟩
    have hn : (s.captures.get c).phase = .notStarted := hw.idle ho c
    have hk : (s.captures.get c).Keeps ((s.captures.get c).goTo .checkStop) := .goTo (hn ▸ rfl)
    exact (h.custody c).keeps hk (by cases c <;> rfl) rfl rfl (by rw [ho]; rfl)
      (by rw [hi.idle ho]; rfl)

theorem Owned.spawnFails {thread : Thread} {reason : String} {now : Moment} (h : Owned s)
    (hs : (s.spawnFails thread reason now).map (·.2) = some t) : Owned t := by
  obtain ⟨ho, hf, rfl⟩ := spawnFails_eq hs
  have hp := phase_withdraw s thread
  have hq : (s.withdraw thread.onward).control.phase.claimed? = s.control.phase.claimed? := by
    rw [hp, control_of_fresh hf]
    rfl
  refine ⟨fun c => ?_, fun _ _ hl => (nomatch hp ▸ hl), congrArg ControlPhase.isStale hp⟩
  have hk : (s.captures.get c).Keeps ((s.withdraw thread.onward).captures.get c) := by
    obtain hx | ⟨hn, hx⟩ := withdraw_captures hf c
    · exact hx ▸ .refl
    · rw [hn, hx]
      exact .goTo rfl
  exact (h.custody c).keeps hk rfl rfl rfl (by rw [ho]; rfl) hq

theorem Owned.step {e : Event} (h : Owned s) (hi : InStep s) (hw : s.Sound)
    (hs : s.step e = some t) : Owned t := by
  obtain ⟨clock, action⟩ := e
  cases action
  case start => exact h.start hi hw hs
  case spawnFails => exact h.spawnFails hs
  case beginStop =>
    simp only [State.step, beginStop] at hs
    split at hs
    case h_1 ho => cases hs; exact h.congr rfl rfl rfl (by rw [ho]; rfl)
    case h_2    => cases hs
  case owner => exact (ownerStep_cases hs).owned h
  case thread thread signal =>
    cases thread
    case capture c => exact h.capture (captureStep_cases hs).effect
    case control   => exact (controlStep_cases hs).owned h
    case detector  =>
      cases detectorStep_cases hs
      all_goals exact h.congr
  case command =>
    obtain ⟨_, rfl⟩ := command_eq hs
    exact h.congr
  case request =>
    simp only [State.step, State.request] at hs
    split at hs
    case h_1 => cases hs; exact h.congr
    case h_2 => cases hs
  case readFrame | readDetection =>
    cases hs
    exact h.congr
  case arriveLate | refuseLate | closeStray =>
    obtain ⟨_, _, rfl⟩ := Option.map_eq_some_iff.mp hs
    exact h.congr

theorem owned_of_reachable {jpeg : JpegDecoder} {config : Config} {frames : FrameChannel}
    {detections : DetectionChannel} (h : Reachable (.new jpeg config frames detections) s) :
    Owned s := by
  induction h
  case start         => exact .new
  case step hr he ih => exact ih.step (InStep.new.reachable hr) (tracked_of_reachable hr).1 he

-- A device is claimed just when there is one claim on it, in one place. So the next device never
-- meets an old one: not in the slot, and not with the thread that takes it out of there.
theorem claim_has_one_holder {jpeg : JpegDecoder} {config : Config} {frames : FrameChannel}
    {detections : DetectionChannel} (hs : Reachable (.new jpeg config frames detections) s)
    (c : Camera) :
    (s.claims.isClaimed c = true ↔ ∃ place, s.holders c = [place]) ∧
    ((s.claims.claim? c).isSome ↔ s.holders c = []) ∧
    (∀ handle, handle ∈ (s.captures.get c).handles ∨ s.handoff.get c = some handle →
      handle.camera = c) ∧
    (∀ w handle, s.control.phase = .deposit w handle → handle.camera = w.transition.target ∧
      s.handoff.get w.transition.target = none) ∧
    (∀ handle, s.handoff.get c = some handle → (s.captures.get c).lease = none) ∧
    s.control.phase.isStale = false ∧ (s.captures.get c).phase.replaces = false := by
  have h := owned_of_reachable hs
  have hc := h.custody c
  refine ⟨?_, ?_, ?_, fun w handle hp => ⟨h.leases w handle (hp ▸ rfl), h.slot_of_deposit hp⟩,
    fun _ hh => hc.lease_of_handed hh, h.stale, hc.replaces⟩
  · rw [← List.length_eq_one_iff, hc.counted]
    cases s.claims.isClaimed c <;> simp
  · rw [← List.length_eq_zero_iff, hc.counted, Claims.claim?]
    cases s.claims.isClaimed c <;> simp
  · rintro handle (hh | hh)
    · exact hc.handles handle hh
    · exact hc.slot handle hh

-- The day camera's thread has opened its device, and a switch has left the night camera's device in
-- its slot.
def leftInSlot : List Event :=
  let event (action : Action) : Event := ⟨⟨.start, ⟨0⟩⟩, action⟩
  let control (signal : Signal) := event (.thread .control signal)
  let day (signal : Signal) := event (.thread (.capture .day) signal)
  [event .start] ++ List.replicate 4 (day .go) ++ [day .opened]
    ++ [event (.command ⟨.manual, some .night, none⟩), event .request]
    ++ List.replicate 5 (control .go) ++ [control .openLate] ++ List.replicate 7 (control .go)
    ++ [control .opened] ++ List.replicate 3 (control .go)

theorem claim_has_one_holder_left_in_slot : ∃ s,
    Reachable (.new .blind {} (.inProcess none) (.inProcess none)) s ∧
    s.holders .day = [.capture] ∧ s.claims.isClaimed .day = true ∧
    s.holders .night = [.slot] ∧ s.claims.isClaimed .night = true ∧
    (s.captures.get .night).lease = none := by
  have hr : ((State.new .blind {} (.inProcess none) (.inProcess none)).run leftInSlot).map
      (fun s => (s.holders .day, s.holders .night, s.handoff.get .night)) =
      some ([.capture], [.slot], some ⟨2, .night⟩) := by
    rfl
  have ⟨s, hrun, h⟩ := Option.map_eq_some_iff.mp hr
  simp only [Prod.mk.injEq] at h
  have ⟨hd, hn, hh⟩ := h
  have hs := Reachable.run .start hrun
  have ⟨hday, _⟩ := claim_has_one_holder hs .day
  have ⟨hnight, _, _, _, hl, _⟩ := claim_has_one_holder hs .night
  exact ⟨s, hs, hd, hday.mpr ⟨_, hd⟩, hn, hnight.mpr ⟨_, hn⟩, hl _ hh⟩

end State

end Pipeline

end DayNight
