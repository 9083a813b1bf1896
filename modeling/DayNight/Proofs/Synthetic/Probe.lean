import DayNight.Proofs.Synthetic.Ledger
import DayNight.Proofs.Synthetic.Rendering

namespace DayNight

theorem Claims.release_of_claim? {cs new : Claims} {c : Camera} (h : cs.claim? c = some new) :
    new.release c = cs := by
  unfold claim? at h
  split at h
  case isTrue => cases h
  case isFalse hc =>
    cases h
    obtain ⟨⟨day, night⟩⟩ := cs
    cases c <;> simp_all [release, isClaimed, PerCamera.set, PerCamera.get]

namespace SyntheticCamera

variable {camera : SyntheticCamera} {c : Camera} {timeout : Duration} {value : Float}

theorem told_eq_ok_iff : camera.told = .ok value ↔
    ∀ tick jpeg, (camera.render tick).luma jpeg = .ok value := by
  simp only [luma_render, told]
  by_cases hz : camera.width.toNat * camera.height.toNat = 0
  case pos =>
    simp only [if_pos hz]
    constructor <;> intro h
    · cases h
    · cases h 0 .blind
  case neg =>
    simp only [if_neg hz]
    exact ⟨fun h _ _ => Except.ok.inj h ▸ rfl, fun h => Except.ok.inj (h 0 .blind) ▸ rfl⟩

-- What a new handle shows first.
def firstReading (camera : SyntheticCamera) (c : Camera) (timeout : Duration) : Option Float :=
  ((camera.readImage ⟨c, 0, false⟩ timeout).1.bind fun _ => camera.told).toOption

theorem isSome_firstReading : (camera.firstReading c timeout).isSome ↔
    ¬ timeout < camera.readDelay ∧ camera.failReads = false ∧ camera.HasPixels := by
  unfold firstReading readImage
  rw [hasPixels_iff]
  by_cases ht : timeout < camera.readDelay
  case pos => simp [ht, Except.bind, Except.toOption]
  case neg =>
    cases hf : camera.failReads
    case true  => simp [ht, Except.bind, Except.toOption]
    case false =>
      by_cases hz : camera.width.toNat * camera.height.toNat = 0
      all_goals simp [ht, hz, told, Except.bind, Except.toOption]

theorem image_of_firstReading (h : camera.firstReading c timeout = some value) : ∃ image,
    (camera.readImage ⟨c, 0, false⟩ timeout).1 = .ok image ∧
    ∀ jpeg, image.luma jpeg = .ok value := by
  unfold firstReading at h
  cases hr : (camera.readImage ⟨c, 0, false⟩ timeout).1
  case error => rw [hr] at h; cases h
  case ok image =>
    obtain ⟨_, rfl⟩ := readImage_eq_ok_iff.mp hr
    rw [hr] at h
    refine ⟨_, rfl, told_eq_ok_iff.mp ?_ _⟩
    cases ht : camera.told <;> simp_all [Except.bind, Except.toOption]

end SyntheticCamera

namespace Rig

variable {r s : Rig} {c d : Camera} {patience : Patience} {timeout : Duration}
         {opened kept : List Camera}

-- Closing a closed handle changes nothing.
theorem Opening.closedAgain (h : r.Opening opened kept s) (handle : SyntheticHandle)
    (hc : handle.closed = true) : r.Opening opened kept (s.closed handle) := by
  refine ⟨h.handles, h.held, h.leases, h.claims, fun d => ?_⟩
  rw [← h.cameras, Rig.closed, SyntheticCamera.closeHandle, hc]
  by_cases hd : d = handle.camera
  case pos => exact hd ▸ PerCamera.get_set_self ..
  case neg => exact PerCamera.get_set_of_ne _ hd _

theorem Opening.claimReleased {claims : Claims}
    (h : Opening { r with claims := claims } opened kept s)
    (hc : r.claims.claim? c = some claims) : r.Opening opened kept (s.claimReleased c) where
  handles := h.handles
  held    := h.held
  leases  := h.leases
  claims  := (congrArg (·.release c) h.claims).trans (Claims.release_of_claim? hc)
  cameras := h.cameras

def probed (r : Rig) (c : Camera) (patience : Patience) (timeout : Duration) : Rig :=
  (r.probe c patience timeout).2.1.finish (r.probe c patience timeout).2.2

theorem probe_of_claimed (h : r.claims.isClaimed c = true) :
    r.probe c patience timeout = (.ok none, r, []) := by
  simp [probe, Claims.claim?, h]

-- The device of an unclaimed camera is closed again, if it opens, and the claim given up.
theorem probed_opening (hc : r.claims.isClaimed c = false)
    (hp : patience.delay < patience.limit) :
    r.Opening ((r.pass patience.delay).openedLate ++ r.willOpen c) []
      (r.probed c patience timeout) := by
  have hin : r.openedIn c (device c) (some patience) =
      (r.pass patience.delay).openedLate ++ r.willOpen c := if_pos hp
  have hpr := r.probe_cases c patience timeout
  unfold probed
  generalize r.probe c patience timeout = result at hpr ⊢
  cases hpr
  case claimed h => rw [h] at hc; cases hc
  case refused claims s h _ ho =>
    rw [hin] at ho
    exact ho.claimReleased h
  case opened claims s h _ _ ho =>
    rw [hin] at ho
    let handle := ((s.cameras.get c).readImage ⟨c, 0, false⟩ timeout).2
    have he : handle.entry = ⟨c, false⟩ := SyntheticCamera.entry_readImage
    have hcamera : handle.camera = c := congrArg Ledger.Handle.camera he
    have ht : Opening { r with claims := claims }
        ((r.pass patience.delay).openedLate ++ r.willOpen c) [handle.camera]
        (s.pass ((s.cameras.get c).readTime ⟨c, 0, false⟩ timeout)) := by
      rw [hcamera]
      exact ⟨ho.handles, ho.held, ho.leases, ho.claims, ho.cameras⟩
    have hclosed := ht.closed (congrArg Ledger.Handle.closed he)
    exact (hclosed.closedAgain handle.shut rfl).claimReleased h

-- Afterwards nobody finds anything changed at another handle.
theorem Opening.readNamed (h : r.Opening opened kept s) (name : String) (timeout : Duration) :
    (s.readNamed name timeout).map (·.1) = (r.readNamed name timeout).map (·.1) := by
  unfold Rig.readNamed
  rw [h.handles, h.leases]
  split
  case h_1 => simp only [Option.map_some, h.readImage]
  case h_2 => simp only [Option.map_some, h.readImage]
  case h_3 => rfl

-- The reading of a probe.
theorem probe_reading (hp : patience.delay < patience.limit) :
    (r.probe c patience timeout).1 = .ok
      (if r.claims.isClaimed c ∨ (r.cameras.get c).failOpen then none
        else (r.cameras.get c).firstReading c timeout) := by
  have hpr := r.probe_cases c patience timeout
  generalize r.probe c patience timeout = result at hpr ⊢
  cases hpr
  case claimed hc => simp [hc]
  case refused hc hf _ =>
    have hf := hf.resolve_right (not_not_intro hp)
    simp [hf]
  case opened s hc hf _ ho =>
    have hn := (Claims.isClaimed_of_claim? hc).1
    have ht : (s.cameras.get c).told = (r.cameras.get c).told := by
      rw [ho.cameras]
      rfl
    dsimp only
    rw [SyntheticCamera.peek_readImage, ho.readImage, ht]
    simp [hn, hf, Except.map, SyntheticCamera.firstReading]

theorem probe_reads (r : Rig) (c : Camera) (timeout : Duration)
    (hp : patience.delay < patience.limit) : ∃ reading : Option Float,
    (r.probe c patience timeout).1 = .ok reading ∧
    (reading.isSome ↔ r.claims.isClaimed c = false ∧ (r.cameras.get c).failOpen = false ∧
      ¬ timeout < (r.cameras.get c).readDelay ∧ (r.cameras.get c).failReads = false ∧
      (r.cameras.get c).HasPixels) ∧
    ∀ value, reading = some value → ∃ image,
      ((r.cameras.get c).readImage ⟨c, 0, false⟩ timeout).1 = .ok image ∧
      ∀ jpeg, image.luma jpeg = .ok value := by
  refine ⟨_, probe_reading hp, ?_, fun value h => ?_⟩
  · rw [← SyntheticCamera.isSome_firstReading (c := c)]
    cases r.claims.isClaimed c <;> cases (r.cameras.get c).failOpen <;> simp
  · split at h
    case isTrue  => cases h
    case isFalse => exact SyntheticCamera.image_of_firstReading h

theorem image_of_probe (hp : patience.delay < patience.limit) {value : Float}
    (h : (r.probe c patience timeout).1 = .ok (some value)) : ∃ image,
      ((r.cameras.get c).readImage ⟨c, 0, false⟩ timeout).1 = .ok image ∧
      ∀ jpeg, image.luma jpeg = .ok value := by
  obtain ⟨_, hr, _, hv⟩ := r.probe_reads c timeout hp
  exact hv value (Except.ok.inj (hr.symm.trans h))

theorem answer_of_probe {value : Option Float}
    (h : (r.settle.probe c patience timeout).1 = .ok value) :
    (r.step (.probe c patience timeout)).1 = .sample (value.map fun v => (c, v)) := by
  simp only [step, act]
  generalize r.settle.probe c patience timeout = result at h
  obtain ⟨_ | _, _, _⟩ := result
  case error => cases h
  case ok    => cases h; rfl

theorem step_probe {reading : Option (Camera × Float)}
    (h : (r.step (.probe c patience timeout)).1 = .sample reading) : ∃ value,
      (r.settle.probe c patience timeout).1 = .ok value ∧
      reading = value.map fun v => (c, v) := by
  cases hr : (r.settle.probe c patience timeout).1
  case ok value =>
    exact ⟨value, rfl, Answer.sample.inj (h.symm.trans (answer_of_probe hr))⟩
  case error =>
    simp only [step, act] at h
    generalize r.settle.probe c patience timeout = result at h hr
    obtain ⟨_ | _, _, _⟩ := result
    case error => cases h
    case ok    => cases hr

theorem probed_of_claimed (h : r.claims.isClaimed c = true) : r.probed c patience timeout = r := by
  rw [probed, probe_of_claimed h]
  rfl

-- Claimed or not, devices may have been opened, but no more of them are open than before.
theorem exists_probed_opening (r : Rig) (c : Camera) (timeout : Duration)
    (hp : patience.delay < patience.limit) :
    ∃ opened, r.Opening opened [] (r.probed c patience timeout) := by
  cases hc : r.claims.isClaimed c
  case true  => exact ⟨[], by rw [probed_of_claimed hc]; exact .refl r⟩
  case false => exact ⟨_, probed_opening hc hp⟩

-- Of the other camera only opens that are due by then are seen.
theorem probed_of_ne (hc : r.claims.isClaimed c = false) (hp : patience.delay < patience.limit)
    (hd : d ≠ c) : (r.probed c patience timeout).cameras.get d =
      (r.pass patience.delay).settle.cameras.get d := by
  have hn : (r.willOpen c).count d = 0 := by
    unfold willOpen
    split
    case isTrue  => rfl
    case isFalse => exact List.count_eq_zero.mpr (by simpa using hd)
  have hw := (r.pass patience.delay).settle_opening.cameras d
  rw [hw, (probed_opening hc hp).cameras, List.count_append, hn]
  rfl

-- A probe reads what a new handle would show first, if nobody has claimed the device, it opens, and
-- what is read has pixels. It leaves claims, handles and leases as they were, a claimed device too,
-- and the other camera as it would be if only the time of the open had passed. `start` is the rig
-- when the probe begins, after opens that nobody waits for any more.
theorem probe_is_neutral (r : Rig) (c : Camera) (patience : Patience) (timeout : Duration)
    (hp : patience.delay < patience.limit) :
    let start := r.settle
    let camera := start.cameras.get c
    let answer := (r.step (.probe c patience timeout)).1
    let after := (r.step (.probe c patience timeout)).2
    ∃ reading : Option Float, answer = .sample (reading.map fun value => (c, value)) ∧
    (reading.isSome ↔ start.claims.isClaimed c = false ∧ camera.failOpen = false ∧
      ¬ timeout < camera.readDelay ∧ camera.failReads = false ∧ camera.HasPixels) ∧
    (∀ value, reading = some value → ∃ image,
      (camera.readImage ⟨c, 0, false⟩ timeout).1 = .ok image ∧
      ∀ jpeg, image.luma jpeg = .ok value) ∧
    after.claims = r.claims ∧
    (∀ d, (after.cameras.get d).openHandles = (r.cameras.get d).openHandles) ∧
    (r.claims.isClaimed c = true → after = start) ∧
    (r.claims.isClaimed c = false → ∀ d, d ≠ c →
      after.cameras.get d = (start.pass patience.delay).settle.cameras.get d) ∧
    after.handles = r.handles ∧ after.held = r.held ∧ after.leases = r.leases ∧
    ∀ name timeout, (after.readNamed name timeout).map (·.1) =
      (r.readNamed name timeout).map (·.1) := by
  intro start camera answer after
  have hstart : r.Opening r.openedLate [] start := r.settle_opening
  have hafter : after = start.probed c patience timeout := by
    simp only [after, probed, step, r.act_probe]
    rfl
  obtain ⟨reading, hr, hsome, hvalue⟩ := start.probe_reads c timeout hp
  obtain ⟨opened, ho⟩ := start.exists_probed_opening c timeout hp
  rw [← hafter] at ho
  have h : r.Opening (r.openedLate ++ opened) [] after := hstart.trans ho
  refine ⟨reading, answer_of_probe hr, hsome, hvalue, h.claims, fun d => ?_, fun hc => ?_,
    fun hc d hd => ?_, h.handles, h.held, h.leases, h.readNamed⟩
  · rw [h.cameras]
    exact Int.add_zero _
  · exact hafter.trans (probed_of_claimed (hstart.claims ▸ hc))
  · exact hafter ▸ probed_of_ne (hstart.claims ▸ hc) hp hd

-- The day camera is in use, and the night camera is to be probed.
def watching : Rig :=
  (new .blind 4 2).run [.openHandle "a" .day (device .day) none, .read "a" .zero]

theorem probe_while_watching :
    let result := watching.step (.probe .night ⟨⟨1⟩, .zero⟩ .zero)
    (∃ value, result.1 = .sample (some (.night, value)) ∧
      ∃ image, ((watching.settle.cameras.get .night).readImage ⟨.night, 0, false⟩ .zero).1 =
        .ok image ∧ ∀ jpeg, image.luma jpeg = .ok value) ∧
    (result.2.cameras.get .night).openHandles = 0 ∧
    (result.2.cameras.get .day).openHandles = 1 ∧ result.2.claims.isClaimed .night = false := by
  intro result
  have ⟨reading, ha, hsome, hvalue, hclaims, hh, _⟩ :=
    probe_is_neutral watching .night ⟨⟨1⟩, .zero⟩ .zero (by decide)
  have hpixels : (watching.settle.cameras.get .night).HasPixels :=
    ⟨by decide +kernel, by decide +kernel⟩
  have hs : reading.isSome := hsome.mpr ⟨by decide +kernel, by decide +kernel, by decide +kernel,
    by decide +kernel, hpixels⟩
  obtain ⟨value, rfl⟩ := Option.isSome_iff_exists.mp hs
  refine ⟨⟨value, ha, hvalue value rfl⟩, ?_, ?_, ?_⟩
  · rw [hh]
    decide +kernel
  · rw [hh]
    decide +kernel
  · rw [hclaims]
    decide +kernel

end Rig

end DayNight
