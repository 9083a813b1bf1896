import DayNight.Proofs.Synthetic.Ledger

namespace DayNight

namespace Rig

-- What a chore will make of a camera: it closes an open handle, or frees the claim.
def Chore.closes (c : Camera) : Chore → Bool
  | close h => h.entry.opens c
  | free _ => false

def Chore.frees (c : Camera) : Chore → Bool
  | close _ => false
  | free d => d = c

theorem Chore.closes_close (c : Camera) (h : SyntheticHandle) :
    (close h).closes c = h.entry.opens c :=
  rfl

theorem Chore.frees_free (c d : Camera) : (free d).frees c = decide (d = c) := rfl

-- The claims on a camera that the rig itself knows of, one or none.
def taken (r : Rig) (c : Camera) : Nat := if r.claims.isClaimed c then 1 else 0

variable {r s t : Rig} {c : Camera} {name : String} {opened more : List Camera}
         {chores : List Chore}

-- What is opened or claimed is handed to somebody, or there is a chore that gives it up. Nobody
-- loses anything without such a chore.
structure Balanced (r : Rig) (opened : List Camera) (s : Rig) (chores : List Chore) : Prop where
  opens   : ∀ c, (s.cameras.get c).opens = (r.cameras.get c).opens + opened.count c
  handles : ∀ c, (s.cameras.get c).openHandles + r.ledger.openHandles c =
    (r.cameras.get c).openHandles + s.ledger.openHandles c + chores.countP (·.closes c)
  claims  : ∀ c, s.taken c + r.ledger.claims c =
    r.taken c + s.ledger.claims c + chores.countP (·.frees c)

namespace Balanced

-- Nobody has got or lost anything.
theorem keeps (hl : s.ledger = r.ledger) (hc : s.claims = r.claims)
    (ho : ∀ c, (s.cameras.get c).opens = (r.cameras.get c).opens)
    (hh : ∀ c, (s.cameras.get c).openHandles = (r.cameras.get c).openHandles) :
    r.Balanced [] s [] := by
  refine ⟨ho, fun c => ?_, fun c => ?_⟩
  · rw [hl, hh]
    exact (Int.add_zero _).symm
  · rw [hl, taken, taken, hc]
    rfl

theorem after (ho : r.Opening opened [] s) (hb : s.Balanced more t chores) :
    r.Balanced (opened ++ more) t chores := by
  refine ⟨fun c => ?_, fun c => ?_, fun c => ?_⟩
  · rw [hb.opens, ho.cameras, List.count_append, ← Nat.add_assoc]
    rfl
  · have h := hb.handles c
    rw [ho.ledger, ho.cameras] at h
    simpa [SyntheticCamera.counting] using h
  · have h := hb.claims c
    have hs : s.taken c = r.taken c := by rw [taken, taken, ho.claims]
    rwa [ho.ledger, hs] at h

theorem of_opening (h : r.Opening opened [] s) : r.Balanced opened s [] := by
  have hb := after h (.keeps rfl rfl (fun _ => rfl) fun _ => rfl)
  rwa [List.append_nil] at hb

-- Things are handed over or left to chores; the cameras and claims come to know of it later.
theorem hands (hcam : s.cameras = r.cameras) (hcl : s.claims = r.claims)
    (hh : ∀ c, r.ledger.openHandles c = s.ledger.openHandles c + chores.countP (·.closes c))
    (hc : ∀ c, r.ledger.claims c = s.ledger.claims c + chores.countP (·.frees c)) :
    r.Balanced [] s chores := by
  refine ⟨fun c => by rw [hcam]; rfl, fun c => ?_, fun c => ?_⟩
  · have h := hh c
    rw [hcam]
    omega
  · have h := hc c
    rw [taken, taken, hcl]
    omega

end Balanced

theorem countP_toList_map {α β : Type} (o : Option α) (f : α → β) (p : β → Bool) :
    (o.map f).toList.countP p = o.toList.countP fun a => p (f a) := by
  cases o <;> rfl

theorem entry_shut (h : SyntheticHandle) : h.shut.entry = h.entry.shut := rfl

theorem opens_shut (h : SyntheticHandle) (c : Camera) : h.shut.entry.opens c = false := by
  simp [Ledger.Handle.opens, SyntheticHandle.entry, SyntheticHandle.shut]

-- A lease that goes away closes its handle, if that is open, and frees its claim.
theorem countP_dropped (l : SyntheticLease) (c : Camera) :
    l.dropped.countP (·.closes c) = [l].countP (·.handle.entry.opens c) ∧
    l.dropped.countP (·.frees c) = [l].countP (·.claim = c) := by
  simp [SyntheticLease.dropped, List.countP_cons, Chore.closes, Chore.frees]

-- When it is released too, for a closed handle is not closed again.
theorem countP_released (l : SyntheticLease) (c : Camera) :
    l.released.countP (·.closes c) = [l].countP (·.handle.entry.opens c) ∧
    l.released.countP (·.frees c) = [l].countP (·.claim = c) := by
  simp [SyntheticLease.released, SyntheticLease.dropped, List.countP_cons, Chore.closes,
    Chore.frees, opens_shut]

-- A new handle gets a name.
theorem putHandle_balanced {h : SyntheticHandle} (ho : r.Opening opened [h.camera] s)
    (hc : h.closed = false) :
    r.Balanced opened (s.putHandle name h).1 (s.putHandle name h).2 := by
  refine ⟨fun d => congrArg SyntheticCamera.opens (ho.cameras d), fun d => ?_, fun d => ?_⟩
  · have hcam : ((s.putHandle name h).1.cameras.get d).openHandles =
        (r.cameras.get d).openHandles + [h.camera].count d :=
      congrArg SyntheticCamera.openHandles (ho.cameras d)
    have hnew : [h.camera].count d = [h].countP (·.entry.opens d) := by
      simp [List.count_singleton, Ledger.Handle.opens, SyntheticHandle.entry, hc]
    rw [hcam, hnew, ledger_openHandles, ledger_openHandles, putHandle, Named.countP_values_put,
      countP_toList_map, ho.leases, ho.handles, Named.countP_values r.handles name]
    simp only [Chore.closes]
    omega
  · have ht : (s.putHandle name h).1.taken d = r.taken d := by
      rw [taken, taken, putHandle, ho.claims]
    rw [ht, ledger_claims, ledger_claims, putHandle, ho.held, ho.leases, countP_toList_map]
    simp [Chore.frees]

theorem closeHandle_balanced {h : SyntheticHandle} (hg : r.handles.get? name = some h) :
    r.Balanced [] { r with handles := r.handles.modify name (·.shut) } [.close h] := by
  refine .hands rfl rfl (fun c => ?_) fun c => ?_
  · rw [ledger_openHandles, ledger_openHandles, Named.countP_values_modify,
      Named.countP_values r.handles name, hg]
    simp [opens_shut, Chore.closes, List.countP_cons]
    omega
  · rw [ledger_claims, ledger_claims]
    rfl

theorem dropHandle_balanced {h : SyntheticHandle} (hg : r.handles.get? name = some h) :
    r.Balanced [] { r with handles := r.handles.erase name } [.close h] := by
  refine .hands rfl rfl (fun c => ?_) fun c => ?_
  · rw [ledger_openHandles, ledger_openHandles, Named.countP_values r.handles name, hg]
    exact Nat.add_right_comm ..
  · rw [ledger_claims, ledger_claims]
    rfl

theorem unclaim_balanced (hg : r.held.get? name = some c) :
    r.Balanced [] { r with held := r.held.erase name } [.free c] := by
  refine .hands rfl rfl (fun d => ?_) fun d => ?_
  · rw [ledger_openHandles, ledger_openHandles]
    rfl
  · rw [ledger_claims, ledger_claims, Named.countP_values r.held name, hg]
    exact Nat.add_right_comm ..

theorem release_balanced {l : SyntheticLease} (hg : r.leases.get? name = some l) :
    r.Balanced [] { r with leases := r.leases.erase name } l.released := by
  refine .hands rfl rfl (fun c => ?_) fun c => ?_
  · rw [ledger_openHandles, ledger_openHandles, Named.countP_values r.leases name, hg,
      (countP_released l c).1]
    exact (Nat.add_assoc ..).symm
  · rw [ledger_claims, ledger_claims, Named.countP_values r.leases name, hg,
      (countP_released l c).2]
    exact (Nat.add_assoc ..).symm

theorem taken_of_claim? {claims : Claims} (h : r.claims.claim? c = some claims) (d : Camera) :
    taken { r with claims := claims } d = r.taken d + [c].countP (· = d) := by
  obtain ⟨hc, hd⟩ : r.claims.isClaimed c = false ∧ claims = ⟨r.claims.taken.set c true⟩ := by
    unfold Claims.claim? at h
    split at h
    case isTrue     => cases h
    case isFalse hc => exact ⟨by simpa using hc, (Option.some.inj h).symm⟩
  by_cases he : d = c
  case pos =>
    have hs : claims.isClaimed d = true := by rw [hd, he]; exact PerCamera.get_set_self ..
    rw [taken, taken, hs, he, hc]
    simp
  case neg =>
    have hs : claims.isClaimed d = r.claims.isClaimed d := by
      rw [hd]
      exact PerCamera.get_set_of_ne _ he _
    rw [taken, taken, hs]
    simp [Ne.symm he]

-- The claim gets a name.
theorem claim_balanced {claims : Claims} (h : r.claims.claim? c = some claims) :
    r.Balanced [] ({ r with claims := claims }.putHeld name c).1
      ({ r with claims := claims }.putHeld name c).2 := by
  refine ⟨fun d => rfl, fun d => ?_, fun d => ?_⟩
  · rw [ledger_openHandles, ledger_openHandles, putHeld, countP_toList_map]
    simp [Chore.closes]
  · have ht : ({ r with claims := claims }.putHeld name c).1.taken d =
        r.taken d + [c].countP (· = d) := taken_of_claim? h d
    rw [ht, ledger_claims, ledger_claims, putHeld, Named.countP_values_put, countP_toList_map,
      Named.countP_values r.held name]
    simp only [Chore.frees]
    omega

-- The claim is held for as long as the operation takes, and what is opened meanwhile is closed.
theorem borrows_balanced {claims : Claims} {kept : List Camera}
    (hc : r.claims.claim? c = some claims)
    (ho : { r with claims := claims }.Opening opened kept s)
    (hcl : ∀ d, chores.countP (·.closes d) = kept.count d)
    (hf : ∀ d, chores.countP (·.frees d) = [c].countP (· = d)) : r.Balanced opened s chores := by
  have hl : s.ledger = r.ledger := ho.ledger
  refine ⟨fun d => congrArg SyntheticCamera.opens (ho.cameras d), fun d => ?_, fun d => ?_⟩
  · have hcam : (s.cameras.get d).openHandles = (r.cameras.get d).openHandles + kept.count d :=
      congrArg SyntheticCamera.openHandles (ho.cameras d)
    rw [hcam, hl, hcl]
    omega
  · have ht : s.taken d = taken { r with claims := claims } d := by rw [taken, taken, ho.claims]
    rw [ht, taken_of_claim? hc, hl, hf]
    omega

theorem probe_balanced {patience : Patience} {timeout : Duration} :
    r.Balanced
      (if r.claims.isClaimed c then [] else r.openedIn c (device c) (some patience))
      (r.probe c patience timeout).2.1 (r.probe c patience timeout).2.2 := by
  have hp := r.probe_cases c patience timeout
  generalize r.probe c patience timeout = result at hp ⊢
  cases hp
  case claimed hc =>
    rw [if_pos hc]
    exact .keeps rfl rfl (fun _ => rfl) fun _ => rfl
  case refused hc _ ho =>
    rw [(Claims.isClaimed_of_claim? hc).1]
    exact borrows_balanced hc ho (fun d => rfl) fun d => rfl
  case opened s hc _ _ ho =>
    let h := ((s.cameras.get c).readImage ⟨c, 0, false⟩ timeout).2
    have he : h.entry = ⟨c, false⟩ := SyntheticCamera.entry_readImage
    rw [(Claims.isClaimed_of_claim? hc).1]
    refine borrows_balanced hc ⟨ho.handles, ho.held, ho.leases, ho.claims, ho.cameras⟩
      (fun d => ?_) fun d => ?_
    · refine (countP_released ⟨h, c⟩ d).1.trans ?_
      simp [he, Ledger.Handle.opens, List.count_singleton]
    · exact (countP_released ⟨h, c⟩ d).2

theorem countP_getD_dropped (o : Option SyntheticLease) (c : Camera) :
    ((o.map (·.dropped)).getD []).countP (·.closes c) =
      o.toList.countP (·.handle.entry.opens c) ∧
    ((o.map (·.dropped)).getD []).countP (·.frees c) = o.toList.countP (·.claim = c) := by
  cases o
  case none   => exact ⟨rfl, rfl⟩
  case some l => exact countP_dropped l c

theorem makeLease_balanced (r : Rig) (name : String) :
    r.Balanced [] (r.makeLease name).2.1 (r.makeLease name).2.2 := by
  have hh := Named.countP_values r.handles name
  have hc := Named.countP_values r.held name
  unfold makeLease
  cases hgh : r.handles.get? name <;> cases hgc : r.held.get? name
  all_goals
    rw [hgh] at hh
    rw [hgc] at hc
    refine .hands rfl rfl (fun d => ?_) fun d => ?_
  case some.some.refine_1 h c =>
    have hp := (countP_getD_dropped (r.leases.get? name) d).1
    dsimp only [putLease]
    rw [ledger_openHandles, ledger_openHandles, hh, Named.countP_values_put, hp,
      Named.countP_values r.leases name]
    simp only [Option.toList_some, List.countP_singleton]
    omega
  case some.some.refine_2 h c =>
    have hp := (countP_getD_dropped (r.leases.get? name) d).2
    dsimp only [putLease]
    rw [ledger_claims, ledger_claims, hc, Named.countP_values_put, hp,
      Named.countP_values r.leases name]
    simp only [Option.toList_some, List.countP_singleton]
    omega
  all_goals simp only [ledger_openHandles, ledger_claims, hh, hc]
  case some.none.refine_1 | none.some.refine_2 => exact Nat.add_right_comm ..
  all_goals rfl

theorem readNamed_same {timeout : Duration} {answer : Except SourceError Image}
    (h : r.readNamed name timeout = some (answer, s)) :
    s.ledger = r.ledger ∧ s.claims = r.claims ∧ s.cameras = r.cameras := by
  unfold readNamed at h
  split at h
  case h_1 l _ _ _ =>
    cases h
    refine ⟨?_, rfl, rfl⟩
    simp only [ledger, pass]
    rw [Named.map_modify_of_same]
    intro l'
    simp [SyntheticLease.entry, SyntheticCamera.entry_readImage]
  case h_2 h' _ _ =>
    cases h
    refine ⟨?_, rfl, rfl⟩
    simp only [ledger, pass]
    rw [Named.map_modify_of_same]
    intro h'
    exact SyntheticCamera.entry_readImage
  case h_3 => cases h

theorem readNamed_balanced {timeout : Duration} {answer : Except SourceError Image}
    (h : r.readNamed name timeout = some (answer, s)) : r.Balanced [] s [] := by
  obtain ⟨hl, hc, hcam⟩ := readNamed_same h
  exact .keeps hl hc (fun _ => by rw [hcam]) fun _ => by rw [hcam]

theorem setCamera_balanced {camera : SyntheticCamera}
    (ho : camera.opens = (r.cameras.get c).opens)
    (hh : camera.openHandles = (r.cameras.get c).openHandles) :
    r.Balanced [] (r.setCamera c camera) [] := by
  have hd (d : Camera) : (r.setCamera c camera).cameras.get d =
      if d = c then camera else r.cameras.get d := by
    split
    case isTrue hd  => exact hd ▸ PerCamera.get_set_self ..
    case isFalse hd => exact PerCamera.get_set_of_ne _ hd _
  refine .keeps rfl rfl (fun d => ?_) fun d => ?_
  all_goals
    rw [hd]
    split
    case isTrue he  => rw [he]; assumption
    case isFalse    => rfl

theorem act_balanced (r : Rig) (action : Action) :
    r.Balanced (r.opened action) (r.act action).2.1 (r.act action).2.2 := by
  refine .after r.settle_opening ?_
  have same : r.settle.Balanced [] r.settle [] := .keeps rfl rfl (fun _ => rfl) fun _ => rfl
  cases action
  case setBrightness | setFailOpen | setFailReads | setReadDelay =>
    exact setCamera_balanced rfl rfl
  case inspect => exact same
  case openHandle name c device patience =>
    have ho := r.settle.openDevice_opens c device patience
    simp only [act]
    generalize r.settle.openDevice c device patience = result at ho ⊢
    cases ho
    case ok ho    => exact putHandle_balanced ho rfl
    case error ho => exact .of_opening ho
  case read name timeout =>
    simp only [act]
    split
    case h_1 hr => exact readNamed_balanced hr
    case h_2 hr => exact readNamed_balanced hr
    case h_3    => exact same
  case peek name timeout =>
    simp only [act]
    split
    case h_1 hr =>
      split
      all_goals exact readNamed_balanced hr
    case h_2    => exact same
  case close =>
    simp only [act]
    split
    case h_1 hg => exact closeHandle_balanced hg
    case h_2    => exact same
  case drop =>
    simp only [act]
    split
    case h_1 hg => exact dropHandle_balanced hg
    case h_2    => exact same
  case claim =>
    simp only [act]
    split
    case h_1 hc => exact claim_balanced hc
    case h_2    => exact same
  case unclaim =>
    simp only [act]
    split
    case h_1 hg => exact unclaim_balanced hg
    case h_2    => exact same
  case lease name =>
    have hm := r.settle.makeLease_balanced name
    simp only [act]
    split
    all_goals
      rename_i he
      rw [he] at hm
      exact hm
  case release =>
    simp only [act]
    split
    case h_1 hg => exact release_balanced hg
    case h_2    => exact same
  case probe => rw [act_probe]; exact probe_balanced

theorem probe_ledger {patience : Patience} {timeout : Duration} :
    (r.probe c patience timeout).2.1.ledger = r.ledger := by
  have hp := r.probe_cases c patience timeout
  generalize r.probe c patience timeout = result at hp ⊢
  cases hp
  case claimed        => rfl
  case refused ho     => exact ho.ledger
  case opened _ _ _ ho => exact ho.ledger

theorem makeLease_ledger (r : Rig) (name : String) : (r.makeLease name).2.1.ledger =
    r.ledger.enter (.lease name) ((r.makeLease name).1.elim .unknownName (.camera ·)) := by
  have hg : (r.handles.map (·.entry)).get? name = (r.handles.get? name).map (·.entry) :=
    Named.get?_map
  unfold makeLease
  cases hh : r.handles.get? name <;> cases hc : r.held.get? name
  all_goals
    rw [hh] at hg
    simp only [Ledger.enter, ledger, hg, Option.map, Option.elim, Named.map_erase]
  case some.some h c =>
    simp only [putLease, Named.map_put, Named.map_erase]
    rfl

theorem act_ledger (r : Rig) (action : Action) :
    (r.act action).2.1.ledger = r.ledger.enter action (r.act action).1 := by
  rw [← r.settle_opening.ledger]
  cases action
  case setBrightness | setFailOpen | setFailReads | setReadDelay | inspect => rfl
  case openHandle name c device patience =>
    have ho := r.settle.openDevice_opens c device patience
    simp only [act]
    generalize r.settle.openDevice c device patience = result at ho ⊢
    cases ho
    case error ho => exact ho.ledger
    case ok ho =>
      simp only [putHandle, Ledger.enter, ← ho.ledger]
      simp only [ledger, Named.map_put]
      rfl
  case read name timeout =>
    simp only [act]
    split
    case h_1 hr => exact (readNamed_same hr).1
    case h_2 hr => exact (readNamed_same hr).1
    case h_3    => rfl
  case peek name timeout =>
    simp only [act]
    split
    case h_1 hr =>
      split
      all_goals exact (readNamed_same hr).1
    case h_2    => rfl
  case close =>
    simp only [act]
    split
    case h_1 =>
      simp only [ledger, Ledger.enter]
      rw [Named.map_modify entry_shut]
    case h_2 => rfl
  case drop =>
    simp only [act]
    split
    case h_1 => simp only [ledger, Ledger.enter, Named.map_erase]
    case h_2 => rfl
  case claim =>
    simp only [act]
    split
    all_goals rfl
  case unclaim =>
    simp only [act]
    split
    all_goals rfl
  case lease name =>
    simp only [act]
    have hm := r.settle.makeLease_ledger name
    split
    all_goals
      rename_i he
      rw [he] at hm
      exact hm
  case release =>
    simp only [act]
    split
    case h_1 => simp only [ledger, Ledger.enter, Named.map_erase]
    case h_2 => rfl
  case probe => rw [act_probe]; exact probe_ledger

-- The accounts are right, when what is left to do still counts.
structure Accounted (r : Rig) (left : List Chore) : Prop where
  handles : ∀ c, (r.cameras.get c).openHandles =
    (r.ledger.openHandles c + left.countP (·.closes c) : Nat)
  claims  : ∀ c, r.taken c = r.ledger.claims c + left.countP (·.frees c)

theorem closed_camera (r : Rig) (h : SyntheticHandle) (c : Camera) :
    ((r.closed h).cameras.get c).opens = (r.cameras.get c).opens ∧
    ((r.closed h).cameras.get c).openHandles =
      (r.cameras.get c).openHandles - [h].countP (·.entry.opens c) := by
  by_cases hc : c = h.camera
  case pos =>
    subst hc
    rw [closed, setCamera, PerCamera.get_set_self, SyntheticCamera.closeHandle]
    cases hcl : h.closed <;> simp [Ledger.Handle.opens, SyntheticHandle.entry, hcl]
  case neg =>
    rw [closed, setCamera, PerCamera.get_set_of_ne _ hc]
    simp [Ledger.Handle.opens, SyntheticHandle.entry, Ne.symm hc]

theorem taken_claimReleased (r : Rig) (c d : Camera) :
    (r.claimReleased d).taken c = if d = c then 0 else r.taken c := by
  split
  case isTrue hd  => rw [taken, claimReleased, hd, Claims.isClaimed_release]; rfl
  case isFalse hd =>
    have hs : (r.claims.release d).isClaimed c = r.claims.isClaimed c :=
      PerCamera.get_set_of_ne _ (Ne.symm hd) _
    rw [taken, taken, claimReleased, hs]

theorem taken_le (r : Rig) (c : Camera) : r.taken c ≤ 1 := by
  rw [taken]
  split <;> decide

theorem Accounted.doChore {chore : Chore} {left : List Chore} (h : r.Accounted (chore :: left)) :
    (r.doChore chore).Accounted left := by
  cases chore
  case close handle =>
    refine ⟨fun c => ?_, fun c => ?_⟩
    · have hh := h.handles c
      rw [List.countP_cons, Chore.closes_close] at hh
      have hl : (r.doChore (.close handle)).ledger.openHandles c = r.ledger.openHandles c := rfl
      rw [hl, Rig.doChore, (r.closed_camera handle c).2, hh, List.countP_singleton]
      omega
    · exact h.claims c
  case free d =>
    refine ⟨fun c => h.handles c, fun c => ?_⟩
    have hc := h.claims c
    have hle := r.taken_le c
    have hl : (r.doChore (.free d)).ledger.claims c = r.ledger.claims c := rfl
    simp only [List.countP_cons, Chore.frees_free, decide_eq_true_eq] at hc
    rw [hl, Rig.doChore, taken_claimReleased]
    -- There is but one claim, and this chore frees it.
    split
    case isTrue hd  => rw [if_pos hd] at hc; omega
    case isFalse hd => rw [if_neg hd] at hc; omega

theorem Accounted.finish (h : r.Accounted chores) (k : Nat) :
    (r.finish (chores.take k)).Accounted (chores.drop k) := by
  induction chores generalizing r k
  case nil => simpa [Rig.finish] using h
  case cons chore chores ih =>
    cases k
    case zero   => exact h
    case succ k => exact ih h.doChore k

theorem Accounted.finish_all (h : r.Accounted chores) : (r.finish chores).Accounted [] := by
  simpa using h.finish chores.length

-- Chores leave the tables alone, and open nothing.
theorem finish_same (r : Rig) (chores : List Chore) (c : Camera) :
    (r.finish chores).ledger = r.ledger ∧
    ((r.finish chores).cameras.get c).opens = (r.cameras.get c).opens := by
  induction chores generalizing r
  case nil => exact ⟨rfl, rfl⟩
  case cons chore chores ih =>
    have ⟨hl, ho⟩ := ih (r.doChore chore)
    refine ⟨hl.trans (by cases chore <;> rfl), ho.trans ?_⟩
    cases chore
    case close h => exact (r.closed_camera h c).1
    case free    => rfl

theorem Accounted.act (h : r.Accounted []) (action : Action) :
    (r.act action).2.1.Accounted (r.act action).2.2 := by
  have hb := r.act_balanced action
  refine ⟨fun c => ?_, fun c => ?_⟩
  · have hh := h.handles c
    have hc := hb.handles c
    rw [List.countP_nil] at hh
    omega
  · have hh := h.claims c
    have hc := hb.claims c
    rw [List.countP_nil] at hh
    omega

theorem Accounted.run (h : r.Accounted []) (actions : List Action) :
    (r.run actions).Accounted [] := by
  induction actions generalizing r
  case nil                   => exact h
  case cons action actions ih => exact ih (h.act action).finish_all

theorem Accounted.new (jpeg : JpegDecoder) (width height : UInt32) :
    (new jpeg width height).Accounted [] :=
  ⟨fun c => by cases c <;> rfl, fun c => by cases c <;> rfl⟩

theorem step_ledger (r : Rig) (action : Action) :
    (r.step action).2.ledger = r.ledger.enter action (r.step action).1 :=
  (finish_same _ _ default).1.trans (r.act_ledger action)

theorem run_ledger (r : Rig) (actions : List Action) : (r.run actions).ledger =
    (r.history actions).foldl (fun l (action, answer) => l.enter action answer) r.ledger := by
  induction actions generalizing r
  case nil => rfl
  case cons action actions ih =>
    simp only [history, List.foldl_cons, ← step_ledger]
    exact ih _

theorem run_opens (r : Rig) (actions : List Action) (c : Camera) :
    ((r.run actions).cameras.get c).opens =
      (r.cameras.get c).opens + (r.openedBy actions).count c := by
  induction actions generalizing r
  case nil => rfl
  case cons action actions ih =>
    have hs : ((r.step action).2.cameras.get c).opens =
        (r.cameras.get c).opens + (r.opened action).count c :=
      (finish_same _ _ c).2.trans ((r.act_balanced action).opens c)
    rw [openedBy, List.count_append, ← Nat.add_assoc, ← hs]
    exact ih _

-- The lease of that name goes away: it is released, or a new one gets its name.
def endsLease (name : String) : Action → Answer → Prop
  | .release other, .done => other = name
  | .lease other, .camera (some _) => other = name
  | _, _ => False

theorem drop_eq_nil_of_notMem {α : Type} {a : α} {as : List α} {k : Nat}
    (h : a ∉ (as ++ [a]).drop k) : (as ++ [a]).drop k = [] := by
  by_cases hk : k ≤ as.length
  case pos =>
    rw [List.drop_append_of_le_length hk] at h
    simp at h
  case neg => exact List.drop_eq_nil_of_le (by rw [List.length_append]; exact Nat.not_le.mp hk)

-- The last that is done for such a lease is that its claim becomes free.
theorem chores_of_endsLease {action : Action} {lease : Ledger.Lease}
    (hg : r.ledger.leases.get? name = some lease)
    (he : endsLease name action (r.act action).1) :
    ∃ before, (r.act action).2.2 = before ++ [.free lease.claim] := by
  have hu : (r.settle.leases.get? name).map (·.entry) = some lease := by
    rw [← Named.get?_map, r.settle_opening.leases]
    exact hg
  obtain ⟨l, hgl, rfl⟩ := Option.map_eq_some_iff.mp hu
  cases action
  case release other =>
    simp only [act] at he ⊢
    split
    case h_1 l' hl =>
      rw [hl] at he
      obtain rfl : other = name := he
      obtain rfl : l' = l := Option.some.inj (hl.symm.trans hgl)
      exact ⟨[.close l'.handle, .close l'.handle.shut], rfl⟩
    case h_2 hl =>
      rw [hl] at he
      exact he.elim
  case lease other =>
    simp only [act, makeLease] at he ⊢
    cases hh : r.settle.handles.get? other <;> cases hc : r.settle.held.get? other
    all_goals rw [hh, hc] at he
    case some.some =>
      obtain rfl : other = name := he
      refine ⟨[.close l.handle], ?_⟩
      simp [putLease, hgl, SyntheticLease.dropped, SyntheticLease.entry]
    all_goals exact he.elim
  all_goals cases he

-- Once the claim of such a lease is free, all is done.
theorem Accounted.nothing_left (h : r.Accounted []) {action : Action} {lease : Ledger.Lease}
    {k : Nat} (hg : r.ledger.leases.get? name = some lease)
    (he : endsLease name action (r.act action).1)
    (hfree : ((r.act action).2.1.finish ((r.act action).2.2.take k)).claims.isClaimed
      lease.claim = false) : (r.act action).2.2.drop k = [] := by
  obtain ⟨before, hb⟩ := chores_of_endsLease hg he
  have hc := ((h.act action).finish k).claims lease.claim
  rw [taken, hfree] at hc
  have hnot : Chore.free lease.claim ∉ (r.act action).2.2.drop k := by
    intro hmem
    have hpos : 0 < ((r.act action).2.2.drop k).countP (·.frees lease.claim) :=
      List.countP_pos_iff.mpr ⟨_, hmem, by simp [Chore.frees]⟩
    simp at hc
    omega
  rw [hb] at hnot ⊢
  exact drop_eq_nil_of_notMem hnot

-- The open handles that each camera counts are those that somebody has got and has neither closed
-- nor dropped, and the opens are those that succeeded; a camera is claimed if one claim on it has
-- not been given up. The chores of an operation close each handle just once. When a lease goes
-- away, whoever can claim its camera again finds its handle closed.
theorem handles_and_claims_accounted (jpeg : JpegDecoder) (width height : UInt32)
    (actions : List Action) :
    let start := new jpeg width height
    let r := start.run actions
    let ledger := Ledger.of (start.history actions)
    (∀ c, (r.cameras.get c).openHandles = ledger.openHandles c ∧
      (r.cameras.get c).opens = (start.openedBy actions).count c ∧
      (if r.claims.isClaimed c then 1 else 0) = ledger.claims c) ∧
    ∀ action k,
      let answer := (r.act action).1
      let chores := (r.act action).2.2
      let moment := (r.act action).2.1.finish (chores.take k)
      let next := ledger.enter action answer
      (∀ c, (moment.cameras.get c).openHandles =
        (next.openHandles c + (chores.drop k).countP (·.closes c) : Nat)) ∧
      ∀ name lease, ledger.leases.get? name = some lease → endsLease name action answer →
        (moment.claims.claim? lease.claim).isSome →
        ∀ c, (moment.cameras.get c).openHandles = next.openHandles c := by
  intro start r ledger
  have hr : r.Accounted [] := (Accounted.new jpeg width height).run actions
  have hl : r.ledger = ledger := start.run_ledger actions
  refine ⟨fun c => ⟨?_, ?_, ?_⟩, fun action k => ?_⟩
  · rw [hr.handles, hl]
    rfl
  · have ho := start.run_opens actions c
    have h0 : (start.cameras.get c).opens = 0 := by cases c <;> rfl
    rwa [h0, Nat.zero_add] at ho
  · rw [← hl]
    exact hr.claims c
  · intro answer chores moment next
    have hm : moment.Accounted (chores.drop k) := (hr.act action).finish k
    have hn : moment.ledger = next := by
      rw [(finish_same _ _ default).1, r.act_ledger action, hl]
    refine ⟨fun c => hn ▸ hm.handles c, fun name lease hg he hfree c => ?_⟩
    obtain ⟨claims, hclaim⟩ := Option.isSome_iff_exists.mp hfree
    have hnil : chores.drop k = [] :=
      hr.nothing_left (hl ▸ hg) he (Claims.isClaimed_of_claim? hclaim).1
    rw [hm.handles, hn, hnil]
    rfl

-- The night camera is opened, read and leased.
def leased : List Action :=
  [.openHandle "a" .night (device .night) none, .claim "a" .night, .lease "a", .read "a" .zero]

-- When the lease is released, its handle is closed first, and then the claim becomes free.
theorem released_lease_accounted :
    let r := (new .blind 4 2).run leased
    let moment (k : Nat) := (r.act (.release "a")).2.1.finish ((r.act (.release "a")).2.2.take k)
    ((r.cameras.get .night).openHandles = 1 ∧ r.claims.isClaimed .night = true) ∧
    ((moment 1).cameras.get .night).openHandles = 0 ∧ (moment 2).claims.isClaimed .night = true ∧
    ((moment 3).claims.claim? .night).isSome ∧
    ∀ c, ((moment 3).cameras.get c).openHandles = 0 := by
  intro r moment
  have ⟨_, hmoment⟩ := handles_and_claims_accounted .blind 4 2 leased
  have ⟨_, hends⟩ := hmoment (.release "a") 3
  have hfree : ((moment 3).claims.claim? .night).isSome := by decide +kernel
  have hclosed := hends "a" ⟨⟨.night, false⟩, .night⟩ (by decide +kernel) rfl hfree
  refine ⟨⟨by decide +kernel, by decide +kernel⟩, by decide +kernel, by decide +kernel, hfree,
    fun c => (hclosed c).trans ?_⟩
  cases c <;> decide +kernel

end Rig

end DayNight
