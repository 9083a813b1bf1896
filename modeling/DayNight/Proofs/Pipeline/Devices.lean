import DayNight.Proofs.Pipeline.Custody
import DayNight.Proofs.Pipeline.Events

namespace DayNight

namespace Pipeline

namespace Devices

variable {d e : Devices} {c : Camera} {g : Handle}

-- What is left of the opens of a camera that came too late: those that are still under way, and
-- their handles.
def late (d : Devices) (c : Camera) : List Handle :=
  (d.abandoned ++ d.stray).filter fun h => h.camera = c

theorem inUse_perm (d : Devices) (c : Camera) :
    (d.inUse c).Perm (((d.opening ++ d.opened).filter fun h => h.camera = c) ++ d.late c) := by
  rw [inUse, late, ← List.filter_append]
  refine .filter _ (List.perm_iff_count.mpr fun h => ?_)
  simp only [List.count_append]
  omega

-- Opens that nobody waits for go on by themselves.
structure GoesOn (d e : Devices) : Prop where
  opening : e.opening = d.opening
  opened  : e.opened = d.opened
  late    : e.abandoned ++ e.stray ⊆ d.abandoned ++ d.stray

namespace GoesOn

theorem refl : d.GoesOn d := ⟨rfl, rfl, List.Subset.refl _⟩

theorem arriveLate (h : d.arriveLate? g = some e) : d.GoesOn e := by
  unfold arriveLate? at h
  split at h
  case isFalse => cases h
  case isTrue hm =>
    cases h
    refine ⟨rfl, rfl, fun h hh => ?_⟩
    obtain hh | hh := List.mem_append.mp hh
    · exact List.mem_append_left _ (List.mem_of_mem_erase hh)
    · obtain rfl | hh := List.mem_cons.mp hh
      · exact List.mem_append_left _ hm
      · exact List.mem_append_right _ hh

theorem refuseLate (h : d.refuseLate? g = some e) : d.GoesOn e := by
  unfold refuseLate? at h
  split at h
  case isFalse => cases h
  case isTrue  => cases h; exact ⟨rfl, rfl, (List.erase_sublist.append_right _).subset⟩

theorem closeStray (h : d.closeStray? g = some e) : d.GoesOn e := by
  unfold closeStray? at h
  split at h
  case isFalse => cases h
  case isTrue  => cases h; exact ⟨rfl, rfl, (List.erase_sublist.append_left _).subset⟩

end GoesOn

end Devices

def CapturePhase.opening? : CapturePhase → Option Handle
  | opening h => some h
  | _ => none

def CapturePhase.closing? : CapturePhase → Option Handle
  | close h _ => some h
  | _ => none

namespace CaptureThread

variable {t : CaptureThread}

-- The open that the thread waits for.
def opening (t : CaptureThread) : List Handle := t.phase.opening?.toList

-- The open handles that it has.
def opened (t : CaptureThread) : List Handle := t.lease.toList ++ t.phase.closing?.toList

structure Has (t : CaptureThread) (opening opened : List Handle) : Prop where
  opening : t.opening = opening
  opened  : t.opened = opened

theorem opening_subset : t.opening ⊆ t.handles := by
  have h : t.phase.opening?.toList ⊆ t.phase.handle?.toList := by
    cases t.phase <;> simp [CapturePhase.opening?, CapturePhase.handle?]
  exact fun _ hh => List.mem_append_right _ (h hh)

theorem opened_subset : t.opened ⊆ t.handles := by
  have h : t.phase.closing?.toList ⊆ t.phase.handle?.toList := by
    cases t.phase <;> simp [CapturePhase.closing?, CapturePhase.handle?]
  exact fun _ hh => List.mem_append.mpr ((List.mem_append.mp hh).imp_right fun hh => h hh)

namespace Has

theorem ofPhase {p : CapturePhase} (hp : t.phase = p) :
    t.Has p.opening?.toList (t.lease.toList ++ p.closing?.toList) :=
  ⟨by rw [CaptureThread.opening, hp], by rw [CaptureThread.opened, hp]⟩

theorem still {p : CapturePhase} (hp : t.phase = p) (ho : p.opening? = none := by rfl)
    (hc : p.closing? = none := by rfl) : t.Has [] t.lease.toList := by
  have h := ofPhase hp
  rwa [ho, hc, Option.toList_none, List.append_nil] at h

theorem opens {h : Handle} (hp : t.phase = .opening h) : t.Has [h] t.lease.toList := by
  have hk : t.Has [h] (t.lease.toList ++ []) := ofPhase hp
  rwa [List.append_nil] at hk

theorem start (hp : t.phase = .notStarted) : (t.goTo .checkStop).Has t.opening t.opened := by
  have h := still hp
  rw [h.opening, h.opened]
  exact .still rfl

theorem goOn (next : AfterRelease) : (t.goOn next).Has [] t.lease.toList := by
  cases next <;> exact .still rfl

theorem release (next : AfterRelease) : (t.release next).Has [] t.lease.toList := by
  cases hl : t.lease
  case none =>
    have h : (t.goOn next).Has [] t.lease.toList := .goOn next
    rw [hl] at h
    rwa [CaptureThread.release, hl]
  case some =>
    rw [CaptureThread.release, hl]
    exact ⟨rfl, rfl⟩

theorem endFailure (bare : Bool) : (t.endFailure bare).Has [] t.lease.toList := by
  cases bare <;> exact .still rfl

theorem afterReport (limit : UInt32) (bare : Bool) :
    (t.afterReport limit bare).Has [] t.lease.toList := by
  unfold CaptureThread.afterReport
  split
  case isTrue  => exact .release .sleep
  case isFalse => exact .endFailure bare

theorem afterPublish (luma : Option Float) : (t.afterPublish luma).Has [] t.lease.toList := by
  cases luma <;> exact .still rfl

end Has

end CaptureThread

namespace ControlPhase

-- The open that the control thread waits for.
def opening? : ControlPhase → Option Handle
  | probeOpening h => some h
  | opening _ h _ => some h
  | _ => none

-- The open handle that it has.
def opened? : ControlPhase → Option Handle
  | probeReading h => some h
  | probeClose h _ => some h
  | complete _ h => some h
  | moveGate _ h => some h
  | deposit _ h => some h
  | closeStale _ h => some h
  | discard _ h => some h
  | _ => none

theorem opening_next (next : AfterSwitch) : next.phase.opening? = none := by
  cases next <;> rfl

theorem opened_next (next : AfterSwitch) : next.phase.opened? = none := by
  cases next <;> rfl

end ControlPhase

def OwnerPhase.closing? : OwnerPhase → Option Handle
  | close h _ _ => some h
  | _ => none

namespace State

variable {s t : State} {c : Camera} {clock : Clock} {signal : Signal} {own : CaptureThread}
         {g : Handle} {a b k l : List Handle}

-- The opens that threads wait for.
def opening (s : State) : List Handle :=
  (Camera.all.flatMap fun c => (s.captures.get c).opening) ++ s.control.phase.opening?.toList

def slots (s : State) : List Handle := Camera.all.flatMap fun c => (s.handoff.get c).toList

-- The open handles that somebody has, or that lie in a slot.
def opened (s : State) : List Handle :=
  (Camera.all.flatMap fun c => (s.captures.get c).opened)
    ++ s.slots ++ s.control.phase.opened?.toList ++ s.owner.closing?.toList

-- In a step, the opens in `a` end and those in `b` begin, and the handles in `k` make way for those
-- in `l`.
structure Trades (s : State) (a b k l : List Handle) (t : State) : Prop where
  opening : (a ++ t.opening).Perm (b ++ s.opening)
  opened  : (k ++ t.opened).Perm (l ++ s.opened)

-- What a step does to the devices, and to those who open and use them.
inductive Deals (s t : State) : Prop
  | keeps {a k : List Handle} : s.devices.GoesOn t.devices → s.Trades a a k k t → Deals s t
  | begins {c : Camera} {k : List Handle} : t.devices = (s.devices.begin c).2 →
    s.Trades [] [(s.devices.begin c).1] k k t → Deals s t
  | arrives {g : Handle} : t.devices = s.devices.arrive g → s.Trades [g] [] [] [g] t → Deals s t
  | ends {g : Handle} {k : List Handle} :
    t.devices = s.devices.refuse g ∨ t.devices = s.devices.abandon g →
    s.Trades [g] [] k k t → Deals s t
  | closes {g : Handle} {a : List Handle} : t.devices = s.devices.close g →
    s.Trades a a [g] [] t → Deals s t

-- The devices are in use just as the threads say, apart from opens that came too late.
structure Accounted (s : State) : Prop where
  opening : s.devices.opening.Perm s.opening
  opened  : s.devices.opened.Perm s.opened

theorem Accounted.deals (ha : s.Accounted) (h : s.Deals t) : t.Accounted := by
  have same {k l m : List Handle} (h : (k ++ l).Perm (k ++ m)) : m.Perm l :=
    ((List.perm_append_left_iff k).mp h).symm
  have less {g : Handle} {l m n : List Handle} (hl : l.Perm m) (hm : ([g] ++ n).Perm m) :
      (l.erase g).Perm n := by
    simpa using (hl.trans hm.symm).erase g
  cases h
  case keeps hd ht =>
    exact ⟨hd.opening ▸ ha.opening.trans (same ht.opening),
      hd.opened ▸ ha.opened.trans (same ht.opened)⟩
  case begins hd ht =>
    exact ⟨hd ▸ (ha.opening.cons _).trans ht.opening.symm, hd ▸ ha.opened.trans (same ht.opened)⟩
  case arrives hd ht =>
    exact ⟨hd ▸ less ha.opening ht.opening, hd ▸ (ha.opened.cons _).trans ht.opened.symm⟩
  case ends hd ht =>
    obtain hd | hd := hd
    all_goals exact ⟨hd ▸ less ha.opening ht.opening, hd ▸ ha.opened.trans (same ht.opened)⟩
  case closes hd ht =>
    exact ⟨hd ▸ ha.opening.trans (same ht.opening), hd ▸ less ha.opened ht.opened⟩

theorem count_opening (h : Handle) : s.opening.count h =
    (Camera.all.flatMap fun c => (s.captures.get c).opening).count h +
      s.control.phase.opening?.toList.count h := by
  rw [opening, List.count_append]

theorem count_opened (h : Handle) : s.opened.count h =
    (Camera.all.flatMap fun c => (s.captures.get c).opened).count h +
      s.slots.count h + s.control.phase.opened?.toList.count h +
      s.owner.closing?.toList.count h := by
  simp only [opened, List.count_append]

theorem count_slots (slot : Option Handle) (ht : t.handoff = s.handoff.set c slot) (h : Handle) :
    t.slots.count h + (s.handoff.get c).toList.count h =
      s.slots.count h + slot.toList.count h := by
  rw [slots, ht]
  exact s.handoff.count_set c slot Option.toList h

-- The thread of a camera opens and has something else than before.
theorem counts_of_own (ht : t.captures = s.captures.set c own) (ho : (s.captures.get c).Has a k)
    (hn : own.Has b l) (h : Handle) (hp : t.control.phase = s.control.phase := by rfl)
    (hw : t.owner = s.owner := by rfl) :
    t.opening.count h + a.count h = s.opening.count h + b.count h ∧
    t.opened.count h + k.count h + s.slots.count h =
      s.opened.count h + l.count h + t.slots.count h := by
  have hc := s.captures.count_set c own CaptureThread.opening h
  have hd := s.captures.count_set c own CaptureThread.opened h
  rw [ho.opening, hn.opening] at hc
  rw [ho.opened, hn.opened] at hd
  simp only [count_opening, count_opened, ht, hp, hw]
  omega

theorem trades_of_own (ht : t.captures = s.captures.set c own) (ho : (s.captures.get c).Has a k)
    (hn : own.Has b l) (hh : t.handoff = s.handoff := by rfl)
    (hp : t.control.phase = s.control.phase := by rfl) (hw : t.owner = s.owner := by rfl) :
    s.Trades a b k l t := by
  have hs : t.slots = s.slots := by rw [slots, hh]; rfl
  refine ⟨List.perm_iff_count.mpr fun h => ?_, List.perm_iff_count.mpr fun h => ?_⟩
  all_goals
    have ⟨_, _⟩ := counts_of_own ht ho hn h hp hw
    simp only [List.count_append, hs] at *
    omega

-- The thread takes a device out of its slot.
theorem trades_of_taking (ht : t.captures = s.captures.set c own)
    (ho : (s.captures.get c).Has [] []) (hn : own.Has [] [g])
    (hs : s.handoff.get c = some g) (hh : t.handoff = s.handoff.set c none)
    (hp : t.control.phase = s.control.phase := by rfl) (hw : t.owner = s.owner := by rfl) :
    s.Trades [] [] [] [] t := by
  refine ⟨List.perm_iff_count.mpr fun h => ?_, List.perm_iff_count.mpr fun h => ?_⟩
  all_goals
    have ⟨_, _⟩ := counts_of_own ht ho hn h hp hw
    have hz := count_slots none hh h
    simp only [hs, Option.toList_some, Option.toList_none, List.count_nil, List.nil_append] at *
    omega

theorem CaptureStep.deals (h : s.CaptureStep c clock signal (s.captures.get c) t)
    (hc : s.Custody c) : s.Deals t := by
  -- A thread has nothing apart from the one device that it has claimed.
  have hn (hk : (s.captures.get c).phase.claims = true) : (s.captures.get c).lease = none := by
    have hone := hc.claims_le
    cases hl : (s.captures.get c).lease
    case none   => rfl
    case some _ => simp [CaptureThread.claims, hl, hk] at hone
  cases h
  case begins hp _ | wakes hp _ _ | misses hp _ | goesOn hp _ _ | needs hp _ _ | passes hp _
      | reads hp _ | recovers hp _ _ | withholds hp _ | samples hp _ _ | wants hp _ _ | requests hp
      | readFails hp | gives hp _ _ =>
    exact .keeps .refl (trades_of_own rfl (.still hp) (.still rfl))
  case ends hp _ | wakesUp hp _ _ | yields hp _ =>
    exact .keeps .refl (trades_of_own rfl (.still hp) (.release _))
  case publishes hp _ _ | clears hp _ =>
    exact .keeps .refl (trades_of_own rfl (.still hp) (.afterPublish _))
  case unclaims hp => exact .keeps .refl (trades_of_own rfl (.still hp) (.goOn _))
  case counts hp _ => exact .keeps .refl (trades_of_own rfl (.still hp) (.endFailure _))
  case recounts hp _ _ | reports hp _ =>
    exact .keeps .refl (trades_of_own rfl (.still hp) (.afterReport _ _))
  case takes hp hs hl =>
    have ho := CaptureThread.Has.still hp
    rw [hl] at ho
    exact .keeps .refl (trades_of_taking rfl ho (.still rfl) hs rfl)
  -- The slot is empty while the thread has a device.
  case replaces hs hl => cases (hc.lease_of_handed hs).symm.trans hl
  case claims hp _    => exact .begins rfl (trades_of_own rfl (.still hp) (.opens rfl))
  case opens hp =>
    have ho := CaptureThread.Has.ofPhase hp
    rw [hn (hp ▸ rfl)] at ho
    exact .arrives rfl (trades_of_own rfl ho (.still rfl))
  case fails hp => exact .ends (.inl rfl) (trades_of_own rfl (.opens hp) (.still rfl))
  case late hp  => exact .ends (.inr rfl) (trades_of_own rfl (.opens hp) (.still rfl))
  case closes hp =>
    have ho := CaptureThread.Has.ofPhase hp
    have hl := hn (hp ▸ rfl)
    rw [hl] at ho
    refine .closes rfl (trades_of_own rfl ho ?_)
    rw [← Option.toList_none, ← hl]
    exact .still rfl

-- The control thread opens and has something else than before.
theorem trades_of_control {p : ControlPhase} (hp : s.control.phase = p)
    (ha : p.opening?.toList = a := by rfl) (hb : t.control.phase.opening?.toList = b := by rfl)
    (hk : p.opened?.toList = k := by rfl) (hl : t.control.phase.opened?.toList = l := by rfl)
    (hx : t.captures = s.captures := by rfl) (hh : t.handoff = s.handoff := by rfl)
    (hw : t.owner = s.owner := by rfl) : s.Trades a b k l t := by
  have hs : t.slots = s.slots := by rw [slots, hh]; rfl
  refine ⟨List.perm_iff_count.mpr fun h => ?_, List.perm_iff_count.mpr fun h => ?_⟩
  all_goals
    simp only [List.count_append, count_opening, count_opened, hp, hx, hw, hs, ha, hb, hk, hl]
    omega

theorem trades_of_done {p : ControlPhase} {next : AfterSwitch} (hp : s.control.phase = p)
    (ha : p.opening?.toList = [] := by rfl) (hk : p.opened?.toList = [] := by rfl)
    (ht : t.control.phase = next.phase := by rfl) (hx : t.captures = s.captures := by rfl)
    (hh : t.handoff = s.handoff := by rfl) (hw : t.owner = s.owner := by rfl) :
    s.Trades [] [] [] [] t := by
  refine trades_of_control hp ha ?_ hk ?_ hx hh hw
  · rw [ht, ControlPhase.opening_next, Option.toList_none]
  · rw [ht, ControlPhase.opened_next, Option.toList_none]

theorem trades_of_deciding {p : ControlPhase} {answer : Option Transition} {next : AfterSwitch}
    (hp : s.control.phase = p) (ha : p.opening?.toList = [] := by rfl)
    (hk : p.opened?.toList = [] := by rfl)
    (ht : t.control.phase = switchOr answer next := by rfl)
    (hx : t.captures = s.captures := by rfl) (hh : t.handoff = s.handoff := by rfl)
    (hw : t.owner = s.owner := by rfl) : s.Trades [] [] [] [] t := by
  cases answer
  case none => exact trades_of_done hp ha hk ht hx hh hw
  case some => exact trades_of_control hp ha (by rw [ht]; rfl) hk (by rw [ht]; rfl) hx hh hw

-- The control thread leaves a device in its slot.
theorem trades_of_leaving {w : Switch} (hp : s.control.phase = .deposit w g)
    (hs : s.handoff.get c = none) (hh : t.handoff = s.handoff.set c (some g))
    (ht : t.control.phase = .unlock w := by rfl) (hx : t.captures = s.captures := by rfl)
    (hw : t.owner = s.owner := by rfl) : s.Trades [] [] [] [] t := by
  refine ⟨.of_eq (by simp only [opening, hp, ht, hx]; rfl), List.perm_iff_count.mpr fun h => ?_⟩
  have hz := count_slots (some g) hh h
  simp only [hs, Option.toList_some, Option.toList_none, List.count_nil] at hz
  simp only [List.count_append, count_opened, hp, ht, hx, hw, ControlPhase.opened?,
    Option.toList_some, Option.toList_none, List.count_nil]
  omega

theorem ControlStep.deals (hs : s.ControlStep clock t) (h : Owned s) : s.Deals t := by
  cases hs
  case drops hp _ | skips hp _ _ | reports hp _ | unlocks hp | discardUnclaims hp =>
    exact .keeps .refl (trades_of_done hp)
  case retries hp _ | samples hp _ => exact .keeps .refl (trades_of_deciding hp)
  case probes hp _ | claims hp _ => exact .begins rfl (trades_of_control hp)
  case probeOpens hp | opens hp  => exact .arrives rfl (trades_of_control hp)
  case probeFails hp | fails hp  => exact .ends (.inl rfl) (trades_of_control hp)
  case probeLate hp | late hp    => exact .ends (.inr rfl) (trades_of_control hp)
  case probeCloses hp | staleCloses hp | discards hp => exact .closes rfl (trades_of_control hp)
  case leaves hp hn => exact .keeps .refl (trades_of_leaving hp hn rfl)
  -- The slot is empty, so there is nothing stale to give up.
  case replaces hp hn => cases (h.slot_of_deposit hp).symm.trans hn
  all_goals exact .keeps .refl (trades_of_control ‹s.control.phase = _›)

theorem trades_of_owner {p : OwnerPhase} (ho : s.owner = p)
    (hk : p.closing?.toList = k := by rfl) (hl : t.owner.closing?.toList = l := by rfl)
    (hp : t.control.phase = s.control.phase := by rfl) (hx : t.captures = s.captures := by rfl)
    (hh : t.handoff = s.handoff := by rfl) : s.Trades [] [] k l t := by
  have hs : t.slots = s.slots := by rw [slots, hh]; rfl
  refine ⟨.of_eq (by simp only [opening, hp, hx]), List.perm_iff_count.mpr fun h => ?_⟩
  simp only [List.count_append, count_opened, ho, hp, hx, hs, hk, hl]
  omega

-- The owner takes a device out of its slot.
theorem trades_of_clearing {left : List Camera} {late : List Thread}
    (ho : s.owner = .clearing (c :: left) late) (hs : s.handoff.get c = some g) :
    s.Trades [] [] [] []
      { s with handoff := s.handoff.set c none, owner := .close g left late } := by
  refine ⟨.refl _, List.perm_iff_count.mpr fun h => ?_⟩
  have hz := count_slots (s := s)
    (t := { s with handoff := s.handoff.set c none, owner := .close g left late }) none rfl h
  simp only [hs, Option.toList_some, Option.toList_none, List.count_nil] at hz
  simp only [List.count_append, count_opened, ho, OwnerPhase.closing?, Option.toList_some,
    Option.toList_none, List.count_nil]
  omega

theorem OwnerStep.deals (hs : s.OwnerStep t) : s.Deals t := by
  cases hs
  case takes ho hs => exact .keeps .refl (trades_of_clearing ho hs)
  case closes ho   => exact .closes rfl (trades_of_owner ho)
  all_goals exact .keeps .refl (trades_of_owner ‹s.owner = _›)

theorem Deals.congr (hx : t.captures = s.captures := by rfl)
    (hp : t.control.phase = s.control.phase := by rfl) (hh : t.handoff = s.handoff := by rfl)
    (hw : t.owner.closing? = s.owner.closing? := by rfl)
    (hd : s.devices.GoesOn t.devices := by exact .refl) : s.Deals t :=
  .keeps (a := []) (k := []) hd
    ⟨.of_eq (by simp only [opening, hx, hp]), .of_eq (by simp only [opened, slots, hx, hp, hh, hw])⟩

theorem Step.deals (hs : s.Step t) (h : Owned s) (hi : InStep s) (hw : s.Sound) : s.Deals t := by
  cases hs
  -- Before the start no thread has a device, and the start gives none to any.
  case starts ho =>
    have hp := hi.idle ho
    have hx (c : Camera) : (PerCamera.get ⟨s.captures.day.goTo .checkStop,
        s.captures.night.goTo .checkStop⟩ c).Has (s.captures.get c).opening
        (s.captures.get c).opened := by
      have h := CaptureThread.Has.start (hw.idle ho c)
      cases c <;> exact h
    refine .keeps (a := []) (k := []) .refl ⟨.of_eq ?_, .of_eq ?_⟩
    · simp only [opening, fun c => (hx c).opening, hp]
      rfl
    · simp only [opened, fun c => (hx c).opened, hp, ho]
      rfl
  case spawnFails ho hf =>
    refine .keeps (a := []) (k := []) .refl ⟨.of_eq ?_, .of_eq ?_⟩
    · simp only [opening, withdraw_congr CaptureThread.opening hf, phase_withdraw,
        control_of_fresh hf]
      rfl
    · simp only [opened, withdraw_congr CaptureThread.opened hf, phase_withdraw,
        control_of_fresh hf, ho]
      rfl
  case beginsStop ho  => exact .congr rfl rfl rfl (by rw [ho]; rfl)
  case owner hs       => exact hs.deals
  case capture c _ _ hs => exact hs.deals (h.custody c)
  case detector hs    => cases hs <;> exact .congr
  case control hs     => exact hs.deals h
  case command | requests | readsFrame | readsDetection => exact .congr
  case arrivesLate hd => exact .congr rfl rfl rfl rfl (.arriveLate hd)
  case refusesLate hd => exact .congr rfl rfl rfl rfl (.refuseLate hd)
  case closesStray hd => exact .congr rfl rfl rfl rfl (.closeStray hd)

theorem Accounted.new {jpeg : JpegDecoder} {config : Config} {frames : FrameChannel}
    {detections : DetectionChannel} : (State.new jpeg config frames detections).Accounted :=
  ⟨.refl _, .refl _⟩

theorem accounted_of_reachable {jpeg : JpegDecoder} {config : Config} {frames : FrameChannel}
    {detections : DetectionChannel} (h : Reachable (.new jpeg config frames detections) s) :
    s.Accounted := by
  induction h
  case start => exact .new
  case step hr he ih =>
    exact ih.deals ((step_cases he).deals (owned_of_reachable hr) (InStep.new.reachable hr)
      (tracked_of_reachable hr).1)

-- The opens and the open handles of a camera in the places where claims can be.
def usesIn (s : State) (c : Camera) : Place → List Handle
  | .capture => (s.captures.get c).opening ++ (s.captures.get c).opened
  | .slot => (s.handoff.get c).toList ++ s.owner.closing?.toList.filter fun h => h.camera = c
  | .control => (s.control.phase.opening?.toList ++ s.control.phase.opened?.toList).filter
      fun h => h.camera = c

def uses (s : State) (c : Camera) : List Handle :=
  [.capture, .slot, .control].flatMap (s.usesIn c)

-- A list for each camera, with handles of that camera only.
theorem filter_flatMap {f : Camera → List Handle} (hf : ∀ d, ∀ h ∈ f d, h.camera = d) (c : Camera) :
    (Camera.all.flatMap f).filter (fun h => h.camera = c) = f c := by
  have ho : (f c).filter (fun h => h.camera = c) = f c :=
    List.filter_eq_self.mpr fun h hh => decide_eq_true (hf c h hh)
  have hn : (f c.other).filter (fun h => h.camera = c) = [] :=
    List.filter_eq_nil_iff.mpr fun h hh => by rw [hf _ h hh]; cases c <;> decide
  cases c
  case day   => simpa [Camera.all, Camera.other, ho] using hn
  case night => simpa [Camera.all, Camera.other, ho] using hn

theorem uses_perm (hs : Owned s) (c : Camera) :
    ((s.opening ++ s.opened).filter fun h => h.camera = c).Perm (s.uses c) := by
  have ho := filter_flatMap (f := fun c => (s.captures.get c).opening)
    (fun d _ hh => (hs.custody d).handles _ (CaptureThread.opening_subset hh)) c
  have hk := filter_flatMap (f := fun c => (s.captures.get c).opened)
    (fun d _ hh => (hs.custody d).handles _ (CaptureThread.opened_subset hh)) c
  have hz := filter_flatMap (f := fun c => (s.handoff.get c).toList)
    (fun d _ hh => (hs.custody d).slot _ (Option.mem_toList.mp hh)) c
  refine List.perm_iff_count.mpr fun h => ?_
  simp only [opening, opened, slots, uses, usesIn, List.filter_append, ho, hk, hz,
    List.flatMap_cons, List.flatMap_nil, List.count_append, List.count_nil]
  omega

theorem length_filter_singleton (g : Handle) (c : Camera) :
    ([g].filter fun h => h.camera = c).length = (decide (some g.camera = some c)).toNat := by
  by_cases h : g.camera = c <;> simp [h]

-- No use without a claim.
theorem length_usesIn (s : State) (c : Camera) (place : Place) :
    (s.usesIn c place).length ≤ s.claimsIn c place := by
  have hn {α : Type} (o : Option α) : o.toList.length = o.isSome.toNat := by cases o <;> rfl
  cases place
  case capture =>
    have h (p : CapturePhase) :
        (p.opening?.toList ++ p.closing?.toList).length ≤ p.claims.toNat := by
      cases p <;> exact Nat.le_of_ble_eq_true rfl
    have h := h (s.captures.get c).phase
    simp only [List.length_append, hn] at h
    simp only [usesIn, claimsIn, CaptureThread.opening, CaptureThread.opened, CaptureThread.claims,
      List.length_append, hn]
    omega
  case slot =>
    have h : (s.owner.closing?.toList.filter fun h => h.camera = c).length ≤
        (decide (s.owner.claimed? = some c)).toNat := by
      cases s.owner
      case close h _ _ => exact Nat.le_of_eq (length_filter_singleton h c)
      all_goals exact Nat.zero_le _
    rw [usesIn, claimsIn, List.length_append, hn]
    exact Nat.add_le_add_left h _
  case control =>
    rw [usesIn, claimsIn]
    cases s.control.phase
    case probeOpening h | probeReading h | probeClose h _ | opening _ h _ | complete _ h
        | moveGate _ h | deposit _ h | closeStale _ h | discard _ h =>
      exact Nat.le_of_eq (length_filter_singleton h c)
    all_goals exact Nat.zero_le _

theorem mem_uses : g ∈ s.uses c ↔ ∃ place, g ∈ s.usesIn c place := by
  rw [uses, List.mem_flatMap]
  exact ⟨fun ⟨place, _, h⟩ => ⟨place, h⟩, fun ⟨place, h⟩ => ⟨place, by cases place <;> simp, h⟩⟩

theorem flatMap_place {α : Type} {f : Place → List α} {place : Place}
    (h : ∀ other ≠ place, f other = []) : [.capture, .slot, .control].flatMap f = f place := by
  cases place <;> simp [h]

-- Whoever uses the device has the only claim on it, and uses it once.
theorem holders_of_uses (hc : s.Custody c) {place : Place} (hg : g ∈ s.usesIn c place) :
    s.holders c = [place] ∧ s.uses c = [g] := by
  have hl := s.length_usesIn c
  have hp := List.length_pos_of_mem hg
  have ⟨hone, hnone⟩ : s.claimsIn c place = 1 ∧ ∀ other ≠ place, s.claimsIn c other = 0 := by
    have hb := hc.counted
    have hn := (s.claims.isClaimed c).toNat_le
    have := hl place
    rw [length_holders] at hb
    cases place
    all_goals
      refine ⟨by omega, fun other ho => ?_⟩
      cases other <;> first | contradiction | omega
  have hz : ∀ other ≠ place, s.usesIn c other = [] := fun other ho =>
    List.length_eq_zero_iff.mp (Nat.le_zero.mp (hnone other ho ▸ hl other))
  have ⟨a, ha⟩ : ∃ a, s.usesIn c place = [a] :=
    List.length_eq_one_iff.mp (Nat.le_antisymm (hone ▸ hl place) hp)
  rw [ha, List.mem_singleton] at hg
  refine ⟨?_, by rw [uses, flatMap_place hz, ha, hg]⟩
  rw [holders, flatMap_place fun other ho => by rw [hnone other ho]; rfl, hone]
  rfl

theorem uses_of_mem (hc : s.Custody c) (hg : g ∈ s.uses c) : s.uses c = [g] :=
  have ⟨_, hp⟩ := mem_uses.mp hg
  (holders_of_uses hc hp).2

-- At most one open or open handle of a camera, in the hands of whoever has the claim.
structure UsedUnderClaim (s : State) (c : Camera) : Prop where
  one  : (s.devices.inUse c).length ≤ 1
  held : ∀ h ∈ s.devices.inUse c, ∃ place, s.holders c = [place] ∧ h ∈ s.usesIn c place

theorem inUse_perm (hw : Owned s) (ha : s.Accounted) (c : Camera) :
    (s.devices.inUse c).Perm (s.uses c ++ s.devices.late c) :=
  (s.devices.inUse_perm c).trans
    ((((ha.opening.append ha.opened).filter _).trans (uses_perm hw c)).append_right _)

theorem usedUnderClaim_iff (hw : Owned s) (ha : s.Accounted) :
    s.UsedUnderClaim c ↔ s.devices.late c = [] := by
  have hu := inUse_perm hw ha c
  constructor
  case mp =>
    intro h
    -- An open that came too late is nobody's, and no other is in use.
    refine List.eq_nil_iff_forall_not_mem.mpr fun g hg => ?_
    have ⟨place, _, hp⟩ := h.held g (hu.mem_iff.mpr (List.mem_append_right _ hg))
    have hone := hu.length_eq ▸ h.one
    have := List.length_pos_of_mem hg
    have := List.length_pos_of_mem (mem_uses.mpr ⟨place, hp⟩)
    rw [List.length_append] at hone
    omega
  case mpr =>
    intro hl
    rw [hl, List.append_nil] at hu
    refine ⟨?_, fun g hg => ?_⟩
    · rw [hu.length_eq]
      cases hn : s.uses c
      case nil => exact Nat.zero_le 1
      case cons g rest =>
        have hg : g ∈ s.uses c := hn ▸ List.mem_cons_self ..
        rw [← hn, uses_of_mem (hw.custody c) hg]
        exact Nat.le_refl 1
    · have ⟨place, hp⟩ := mem_uses.mp (hu.mem_iff.mp hg)
      exact ⟨place, (holders_of_uses (hw.custody c) hp).1, hp⟩

theorem Deals.late (h : s.Deals t) (hl : s.devices.late c = []) :
    t.devices.late c = [] ∨ ∃ g ∈ s.opening, t.devices = s.devices.abandon g := by
  cases h
  case keeps hd _ =>
    refine .inl (List.filter_eq_nil_iff.mpr fun g hg => ?_)
    exact List.filter_eq_nil_iff.mp hl g (hd.late hg)
  case begins hd _ | arrives hd _ | closes hd _ => exact .inl (by rw [hd]; exact hl)
  case ends g _ hd ht =>
    obtain hd | hd := hd
    · exact .inl (by rw [hd]; exact hl)
    · exact .inr ⟨g, ht.opening.subset (List.mem_cons_self ..), hd⟩

-- So a device is used under its claim only, unless an open of it came too late; and only waiting
-- that is given up makes it so.
theorem used_under_claim_iff {jpeg : JpegDecoder} {config : Config} {frames : FrameChannel}
    {detections : DetectionChannel} (hs : Reachable (.new jpeg config frames detections) s)
    (c : Camera) :
    (s.devices.inUse c).Perm (s.uses c ++ s.devices.late c) ∧
    (∀ place, ∀ h ∈ s.usesIn c place, s.holders c = [place] ∧ s.uses c = [h] ∧ h.camera = c) ∧
    (s.UsedUnderClaim c ↔ s.devices.late c = []) ∧
    (s.devices.late c = [] → ∀ e t, s.step e = some t →
      t.devices.late c = [] ∨ ∃ h ∈ s.opening, t.devices = s.devices.abandon h) := by
  have hw := owned_of_reachable hs
  have ha := accounted_of_reachable hs
  refine ⟨inUse_perm hw ha c, fun place h hh => ?_, usedUnderClaim_iff hw ha, fun hl e t he => ?_⟩
  · have ⟨hp, hu⟩ := holders_of_uses (hw.custody c) hh
    have hm := (uses_perm hw c).mem_iff.mpr (mem_uses.mpr ⟨place, hh⟩)
    exact ⟨hp, hu, of_decide_eq_true (List.mem_filter.mp hm).2⟩
  · exact ((step_cases he).deals hw (InStep.new.reachable hs) (tracked_of_reachable hs).1).late hl

-- Here the probe's open of the night camera came too late, and is still under way while the device
-- that the switch has opened lies in the slot.
theorem used_under_claim_left_in_slot : ∃ s,
    Reachable (.new .blind {} (.inProcess none) (.inProcess none)) s ∧
    s.UsedUnderClaim .day ∧ s.holders .day = [.capture] ∧
    ¬ s.UsedUnderClaim .night ∧ s.holders .night = [.slot] ∧ s.uses .night = [⟨2, .night⟩] ∧
    s.devices.late .night = [⟨1, .night⟩] := by
  have hr : ((State.new .blind {} (.inProcess none) (.inProcess none)).run leftInSlot).map
      (fun s => (s.usesIn .day .capture, s.devices.late .day, s.handoff.get .night,
        s.devices.late .night)) =
      some ([⟨0, .day⟩], [], some ⟨2, .night⟩, [⟨1, .night⟩]) := by
    rfl
  have ⟨s, hrun, h⟩ := Option.map_eq_some_iff.mp hr
  simp only [Prod.mk.injEq] at h
  have ⟨hu, hd, hh, hn⟩ := h
  have hs := Reachable.run .start hrun
  have ⟨_, hday, hdu, _⟩ := used_under_claim_iff hs .day
  have ⟨_, hnight, hnu, _⟩ := used_under_claim_iff hs .night
  have ⟨hp, _⟩ := hday .capture ⟨0, .day⟩ (by rw [hu]; exact List.mem_cons_self ..)
  have ⟨hq, ho, _⟩ := hnight .slot ⟨2, .night⟩ (by rw [usesIn, hh]; exact List.mem_cons_self ..)
  refine ⟨s, hs, hdu.mpr hd, hp, fun hc => ?_, hq, ho, hn⟩
  cases hn.symm.trans (hnu.mp hc)

-- So a probe may still be at a device that a switch has claimed.
theorem not_always_used_under_claim : ¬ ∀ (jpeg : JpegDecoder) (config : Config)
    (frames : FrameChannel) (detections : DetectionChannel) (s : State) (c : Camera),
    config.validate = .ok () →
    Reachable (.new jpeg config frames detections) s → s.UsedUnderClaim c := by
  intro h
  have hr : ((State.new .blind {} (.inProcess none) (.inProcess none)).run leftInSlot).map
      (fun s => (s.devices.inUse .night).length) = some 2 := by
    rfl
  have ⟨s, hrun, hl⟩ := Option.map_eq_some_iff.mp hr
  have hone := (h .blind {} _ _ s .night rfl (.run .start hrun)).one
  rw [hl] at hone
  exact absurd hone (by decide)

end State

end Pipeline

end DayNight
