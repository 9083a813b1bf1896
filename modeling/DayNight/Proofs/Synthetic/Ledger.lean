import DayNight.Proofs.Synthetic.Names
import DayNight.Synthetic.Rig

namespace DayNight

namespace Ledger

-- A handle, and whether it has been closed.
structure Handle where
  camera : Camera
  closed : Bool
  deriving DecidableEq

structure Lease where
  handle : Handle
  claim : Camera
  deriving DecidableEq

def Handle.shut (h : Handle) : Handle := { h with closed := true }

-- The handle keeps the camera open.
def Handle.opens (c : Camera) (h : Handle) : Bool := h.camera = c ∧ ¬h.closed

end Ledger

-- What has been obtained and not given back, under its names.
structure Ledger where
  handles : Named Ledger.Handle
  held : Named Camera
  leases : Named Ledger.Lease

namespace Ledger

def empty : Ledger := ⟨.empty, .empty, .empty⟩

def enter (l : Ledger) : Rig.Action → Rig.Answer → Ledger
  | .openHandle name c _ _, .opened => { l with handles := l.handles.put name ⟨c, false⟩ }
  | .close name, .done => { l with handles := l.handles.modify name (·.shut) }
  | .drop name, .flag true => { l with handles := l.handles.erase name }
  | .claim name _, .camera (some c) => { l with held := l.held.put name c }
  | .unclaim name, .flag true => { l with held := l.held.erase name }
  | .lease name, answer =>
    let rest := { l with handles := l.handles.erase name, held := l.held.erase name }
    match l.handles.get? name, answer with
    | some h, .camera (some c) => { rest with leases := l.leases.put name ⟨h, c⟩ }
    | _, _ => rest
  | .release name, .done => { l with leases := l.leases.erase name }
  | _, _ => l

def of (history : List (Rig.Action × Rig.Answer)) : Ledger :=
  history.foldl (fun l (action, answer) => l.enter action answer) empty

-- The handles of a camera that have been neither closed nor dropped.
def openHandles (l : Ledger) (c : Camera) : Nat :=
  l.handles.values.countP (·.opens c) + l.leases.values.countP (·.handle.opens c)

-- The claims on a camera that have not been given up.
def claims (l : Ledger) (c : Camera) : Nat :=
  l.held.values.countP (· = c) + l.leases.values.countP (·.claim = c)

end Ledger

namespace Rig

-- What a run of operations answers.
def history : Rig → List Action → List (Action × Answer)
  | _, [] => []
  | r, action :: actions => (action, (r.step action).1) :: (r.step action).2.history actions

end Rig

namespace Rig

def willOpen (r : Rig) (c : Camera) : List Camera :=
  if (r.cameras.get c).failOpen then [] else [c]

-- The opens that nobody waits for any more and that are due now, as far as they succeed.
def openedLate (r : Rig) : List Camera :=
  (r.late.filter fun l => l.due ≤ r.now).flatMap fun l => r.willOpen l.camera

-- What is opened while somebody waits for a device.
def openedIn (r : Rig) (c : Camera) (device : Device) : Option Patience → List Camera
  | some p =>
    if p.delay < p.limit then (r.pass p.delay).openedLate ++ r.willOpen c
    else
      let late := r.late ++ [LateOpen.mk c device (r.now.after p.delay)]
      ({ r with late := late }.pass p.limit).openedLate
  | none => r.willOpen c

-- The cameras of all devices that are opened in an operation, one entry for each open.
def opened (rig : Rig) (action : Action) : List Camera :=
  let r := rig.settle
  rig.openedLate ++ match action with
  | .openHandle _ c device patience => r.openedIn c device patience
  | .probe c patience _ =>
    if r.claims.isClaimed c then [] else r.openedIn c (device c) (some patience)
  | _ => []

def openedBy : Rig → List Action → List Camera
  | _, [] => []
  | r, action :: actions => r.opened action ++ (r.step action).2.openedBy actions

end Rig

def SyntheticHandle.entry (h : SyntheticHandle) : Ledger.Handle := ⟨h.camera, h.closed⟩

def SyntheticLease.entry (l : SyntheticLease) : Ledger.Lease := ⟨l.handle.entry, l.claim⟩

-- Reading changes neither.
theorem SyntheticCamera.entry_readImage {camera : SyntheticCamera} {h : SyntheticHandle}
    {timeout : Duration} : (camera.readImage h timeout).2.entry = h.entry := by
  unfold readImage
  repeat' split
  all_goals rfl

-- The camera with more opens and more open handles on its counts.
def SyntheticCamera.counting (camera : SyntheticCamera) (opens handles : Nat) : SyntheticCamera :=
  { camera with opens := camera.opens + opens, openHandles := camera.openHandles + handles }

namespace Rig

variable {r s t : Rig} {c : Camera} {device : Device} {opened more kept : List Camera}

-- What the ledger says if the tables of the rig are right.
def ledger (r : Rig) : Ledger := ⟨r.handles.map (·.entry), r.held, r.leases.map (·.entry)⟩

theorem ledger_openHandles : r.ledger.openHandles c =
    r.handles.values.countP (·.entry.opens c) +
      r.leases.values.countP (·.handle.entry.opens c) := by
  rw [Ledger.openHandles, ledger, Named.values_map, Named.values_map, List.countP_map,
    List.countP_map]
  rfl

theorem ledger_claims : r.ledger.claims c =
    r.held.values.countP (· = c) + r.leases.values.countP (·.claim = c) := by
  rw [Ledger.claims, ledger, Named.values_map, List.countP_map]
  rfl

-- Devices may have been opened, and some of them are still open; nobody has got or lost anything.
structure Opening (r : Rig) (opened kept : List Camera) (s : Rig) : Prop where
  handles : s.handles = r.handles
  held    : s.held = r.held
  leases  : s.leases = r.leases
  claims  : s.claims = r.claims
  cameras : ∀ c, s.cameras.get c = (r.cameras.get c).counting (opened.count c) (kept.count c)

namespace Opening

theorem refl (r : Rig) : r.Opening [] [] r :=
  ⟨rfl, rfl, rfl, rfl, fun c => by simp [SyntheticCamera.counting]⟩

theorem trans (hr : r.Opening opened [] s) (hs : s.Opening more kept t) :
    r.Opening (opened ++ more) kept t where
  handles := hs.handles.trans hr.handles
  held    := hs.held.trans hr.held
  leases  := hs.leases.trans hr.leases
  claims  := hs.claims.trans hr.claims
  cameras c := by
    rw [hs.cameras, hr.cameras]
    simp [SyntheticCamera.counting, Nat.add_assoc]

theorem ledger (h : r.Opening opened kept s) : s.ledger = r.ledger := by
  rw [Rig.ledger, Rig.ledger, h.handles, h.held, h.leases]

theorem willOpen (h : r.Opening opened kept s) (c : Camera) : s.willOpen c = r.willOpen c := by
  rw [Rig.willOpen, Rig.willOpen, h.cameras]
  rfl

-- The counts have no part in what is read.
theorem readImage (h : r.Opening opened kept s) (c : Camera) (handle : SyntheticHandle)
    (timeout : Duration) : (s.cameras.get c).readImage handle timeout =
      (r.cameras.get c).readImage handle timeout := by
  rw [h.cameras]
  rfl

end Opening

theorem Opening.setCamera {n k : Nat} :
    r.Opening (.replicate n c) (.replicate k c)
      (r.setCamera c ((r.cameras.get c).counting n k)) := by
  refine ⟨rfl, rfl, rfl, rfl, fun d => ?_⟩
  by_cases hd : d = c
  case pos =>
    subst hd
    rw [List.count_replicate_self, List.count_replicate_self]
    exact PerCamera.get_set_self ..
  case neg =>
    have hc : (c == d) = false := beq_false_of_ne (Ne.symm hd)
    rw [List.count_replicate, List.count_replicate, hc]
    exact (PerCamera.get_set_of_ne _ hd _).trans (by simp [SyntheticCamera.counting])

-- The handle that is still open is closed after all.
theorem Opening.closed {h : SyntheticHandle} (hs : r.Opening opened [h.camera] s)
    (hc : h.closed = false) : r.Opening opened [] (s.closed h) := by
  refine ⟨hs.handles, hs.held, hs.leases, hs.claims, fun d => ?_⟩
  by_cases hd : d = h.camera
  case pos =>
    subst hd
    rw [Rig.closed, Rig.setCamera, PerCamera.get_set_self, hs.cameras]
    simp [SyntheticCamera.closeHandle, SyntheticCamera.counting, hc]
  case neg =>
    have hne : (h.camera == d) = false := beq_false_of_ne (Ne.symm hd)
    rw [Rig.closed, Rig.setCamera, PerCamera.get_set_of_ne _ hd, hs.cameras, List.count_singleton,
      hne]
    rfl

-- What comes of an attempt to open the camera's device; `late` says that nobody waits so long.
inductive Opens (r : Rig) (c : Camera) (late : Prop) (opened : List Camera) :
    Except SourceError SyntheticHandle × Rig → Prop
  | ok {s : Rig} : (r.cameras.get c).failOpen = false → ¬ late → r.Opening opened [c] s →
    Opens r c late opened (.ok ⟨c, 0, false⟩, s)
  | error {e : SourceError} {s : Rig} : (r.cameras.get c).failOpen = true ∨ late →
    r.Opening opened [] s → Opens r c late opened (.error e, s)

theorem tryOpen_opens (r : Rig) (c : Camera) (device : Device) :
    r.Opens c False (r.willOpen c) (r.tryOpen c device) := by
  unfold tryOpen willOpen SyntheticCamera.openDevice
  split
  case isFalse hf => exact .ok (by simpa using hf) id (Opening.setCamera (n := 1) (k := 1))
  case isTrue hf =>
    have h := Opening.setCamera (r := r) (c := c) (n := 0) (k := 0)
    exact .error (.inl hf) (by simpa [SyntheticCamera.counting] using h)

-- A handle that was opened for nobody is closed.
theorem openLate_opening (r : Rig) (l : LateOpen) :
    r.Opening (r.willOpen l.camera) [] (r.openLate l) := by
  unfold openLate
  have h := r.tryOpen_opens l.camera l.device
  generalize r.tryOpen l.camera l.device = result at h
  cases h
  case error h => exact h
  case ok h    => exact h.closed rfl

theorem foldl_openLate_opening (r : Rig) (late : List LateOpen) :
    r.Opening (late.flatMap fun l => r.willOpen l.camera) [] (late.foldl openLate r) := by
  induction late generalizing r
  case nil => exact .refl r
  case cons l late ih =>
    have hl := r.openLate_opening l
    have hs : (r.openLate l).Opening (late.flatMap fun l => r.willOpen l.camera) []
        (late.foldl openLate (r.openLate l)) := by
      simpa only [hl.willOpen] using ih (r.openLate l)
    exact hl.trans hs

theorem settle_opening (r : Rig) : r.Opening r.openedLate [] r.settle := by
  have h := foldl_openLate_opening { r with late := r.late.filter fun l => ¬l.due ≤ r.now }
    (r.late.filter fun l => l.due ≤ r.now)
  exact ⟨h.handles, h.held, h.leases, h.claims, h.cameras⟩

-- The open takes too long.
def Late : Option Patience → Prop
  | some p => ¬ p.delay < p.limit
  | none => False

theorem openDevice_opens (r : Rig) (c : Camera) (device : Device) (patience : Option Patience) :
    r.Opens c (Late patience) (r.openedIn c device patience) (r.openDevice c device patience) := by
  cases patience
  case none => exact r.tryOpen_opens c device
  case some p =>
    unfold openDevice openedIn
    dsimp only
    split
    case isFalse hp =>
      let late := r.late ++ [LateOpen.mk c device (r.now.after p.delay)]
      have hs := ({ r with late := late }.pass p.limit).settle_opening
      exact .error (.inr hp) ⟨hs.handles, hs.held, hs.leases, hs.claims, hs.cameras⟩
    case isTrue hp =>
      have hs := (r.pass p.delay).settle_opening
      have hs : r.Opening (r.pass p.delay).openedLate [] (r.pass p.delay).settle :=
        ⟨hs.handles, hs.held, hs.leases, hs.claims, hs.cameras⟩
      have hf : ((r.pass p.delay).settle.cameras.get c).failOpen = (r.cameras.get c).failOpen :=
        by rw [hs.cameras]; rfl
      have h := (r.pass p.delay).settle.tryOpen_opens c device
      rw [hs.willOpen] at h
      generalize (r.pass p.delay).settle.tryOpen c device = result at h
      cases h
      case ok ho _ h => exact .ok (hf ▸ ho) (not_not_intro hp) (hs.trans h)
      case error ho h => exact .error (.inl (hf ▸ ho.resolve_right id)) (hs.trans h)

-- What comes of a probe: the device is claimed, or it does not open, or it is read.
inductive Probes (r : Rig) (c : Camera) (patience : Patience) (timeout : Duration) :
    Except Overflow (Option Float) × Rig × List Chore → Prop
  | claimed : r.claims.isClaimed c = true → Probes r c patience timeout (.ok none, r, [])
  | refused {claims : Claims} {s : Rig} : r.claims.claim? c = some claims →
    (r.cameras.get c).failOpen = true ∨ Late (some patience) →
    Opening { r with claims := claims } (r.openedIn c (Rig.device c) (some patience)) [] s →
    Probes r c patience timeout (.ok none, s, [.free c])
  | opened {claims : Claims} {s : Rig} : r.claims.claim? c = some claims →
    (r.cameras.get c).failOpen = false → ¬ Late (some patience) →
    Opening { r with claims := claims } (r.openedIn c (Rig.device c) (some patience)) [c] s →
    Probes r c patience timeout (
      let read := (s.cameras.get c).readImage ⟨c, 0, false⟩ timeout
      ((SourceError.peek s.jpeg read.1).map (·.toOption),
        s.pass ((s.cameras.get c).readTime ⟨c, 0, false⟩ timeout),
        [.close read.2, .close read.2.shut, .free c]))

theorem probe_cases (r : Rig) (c : Camera) (patience : Patience) (timeout : Duration) :
    r.Probes c patience timeout (r.probe c patience timeout) := by
  unfold probe
  cases hc : r.claims.claim? c
  case none =>
    refine .claimed ?_
    by_contra h
    simp [Claims.claim?, h] at hc
  case some claims =>
    have ho := { r with claims := claims }.openDevice_opens c (Rig.device c) (some patience)
    dsimp only
    generalize { r with claims := claims }.openDevice c (Rig.device c) (some patience) = result
      at ho ⊢
    cases ho
    case error hf ho => exact .refused hc hf ho
    case ok hf hl ho => exact .opened hc hf hl ho

theorem act_probe (r : Rig) (c : Camera) (patience : Patience) (timeout : Duration) :
    (r.act (.probe c patience timeout)).2 = (r.settle.probe c patience timeout).2 := by
  simp only [act]
  generalize r.settle.probe c patience timeout = result
  obtain ⟨_ | _, _, _⟩ := result <;> rfl

end Rig

end DayNight
