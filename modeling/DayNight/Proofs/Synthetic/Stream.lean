import DayNight.Proofs.Synthetic.Accounts
import DayNight.Proofs.Synthetic.Probe

namespace DayNight

namespace SyntheticCamera

variable {camera : SyntheticCamera} {h : SyntheticHandle} {timeout : Duration} {image : Image}
         {value : Float}

def size (camera : SyntheticCamera) : UInt32 × UInt32 := (camera.width, camera.height)

theorem HasPixels.of_size {other : SyntheticCamera} (hp : camera.HasPixels)
    (hs : other.size = camera.size) : other.HasPixels := by
  obtain ⟨hw, hh⟩ := Prod.ext_iff.mp hs
  exact ⟨fun h => hp.1 (hw.symm.trans h), fun h => hp.2 (hh.symm.trans h)⟩

theorem readImage_handle : (camera.readImage h timeout).2 =
    { h with tick := h.tick + (camera.readImage h timeout).1.isOk.toNat } := by
  unfold readImage
  repeat' split
  all_goals rfl

end SyntheticCamera

namespace Rig

variable {r s : Rig} {name other : String} {c d : Camera} {k : Nat} {action : Action}
         {timeout : Duration}

theorem size_setCamera {camera : SyntheticCamera} (hs : camera.size = (r.cameras.get c).size)
    (d : Camera) : ((r.setCamera c camera).cameras.get d).size = (r.cameras.get d).size := by
  by_cases hd : d = c
  case pos =>
    subst hd
    exact (congrArg SyntheticCamera.size (PerCamera.get_set_self ..)).trans hs
  case neg => exact congrArg SyntheticCamera.size (PerCamera.get_set_of_ne _ hd _)

theorem Opening.size {opened kept : List Camera} (h : r.Opening opened kept s) (d : Camera) :
    (s.cameras.get d).size = (r.cameras.get d).size := by
  rw [h.cameras]
  rfl

theorem size_finish (r : Rig) (chores : List Chore) (d : Camera) :
    ((r.finish chores).cameras.get d).size = (r.cameras.get d).size := by
  induction chores generalizing r
  case nil => rfl
  case cons chore chores ih =>
    refine (ih (r.doChore chore)).trans ?_
    cases chore
    case free => rfl
    case close h =>
      refine size_setCamera ?_ d
      unfold SyntheticCamera.closeHandle
      split <;> rfl

theorem size_probe {patience : Patience} :
    ((r.probe c patience timeout).2.1.cameras.get d).size = (r.cameras.get d).size := by
  have hp := r.probe_cases c patience timeout
  generalize r.probe c patience timeout = result at hp ⊢
  cases hp
  case claimed        => rfl
  case refused ho     => exact ho.size d
  case opened _ _ _ ho => exact ho.size d

theorem size_act (r : Rig) (action : Action) (d : Camera) :
    ((r.act action).2.1.cameras.get d).size = (r.cameras.get d).size := by
  rw [← r.settle_opening.size]
  cases action
  case setBrightness | setFailOpen | setFailReads | setReadDelay =>
    exact size_setCamera (by rfl) d
  case inspect => rfl
  case openHandle name c device patience =>
    have ho := r.settle.openDevice_opens c device patience
    simp only [act]
    generalize r.settle.openDevice c device patience = result at ho ⊢
    cases ho
    case ok ho    => exact ho.size d
    case error ho => exact ho.size d
  case read name timeout =>
    simp only [act]
    split
    case h_1 hr => rw [(readNamed_same hr).2.2]
    case h_2 hr => rw [(readNamed_same hr).2.2]
    case h_3    => rfl
  case peek name timeout =>
    simp only [act]
    split
    case h_1 hr =>
      split
      all_goals rw [(readNamed_same hr).2.2]
    case h_2    => rfl
  case close | drop | claim | unclaim | release =>
    simp only [act]
    split
    all_goals rfl
  case lease name =>
    simp only [act, makeLease]
    cases r.settle.handles.get? name <;> cases r.settle.held.get? name
    all_goals rfl
  case probe => rw [act_probe]; exact size_probe

theorem size_step (r : Rig) (action : Action) (d : Camera) :
    ((r.step action).2.cameras.get d).size = (r.cameras.get d).size :=
  (size_finish ..).trans (r.size_act action d)

theorem size_run (r : Rig) (actions : List Action) (d : Camera) :
    ((r.run actions).cameras.get d).size = (r.cameras.get d).size := by
  induction actions generalizing r
  case nil                    => rfl
  case cons action actions ih => exact (ih (r.step action).2).trans (r.size_step action d)

-- A new handle of that name.
def Action.reopens (name : String) : Action → Bool
  | .openHandle other _ _ _ => other = name
  | _ => false

-- An image was read through the name, whether to be shown or for its brightness.
def readsThrough (name : String) : Action × Answer → Bool
  | (.read other _, .image _) => other = name
  | (.peek other _, .value _) => other = name
  | _ => false

-- The name has a handle of the camera, on its own or in a lease, through which so many images were
-- read; or it has none any more.
inductive Follows (r : Rig) (name : String) (c : Camera) (images : Nat) : Prop
  | alone {h : SyntheticHandle} : r.handles.get? name = some h → r.leases.get? name = none →
    h.camera = c → h.tick = images → Follows r name c images
  | leased {l : SyntheticLease} : r.handles.get? name = none → r.leases.get? name = some l →
    l.handle.camera = c → l.handle.tick = images → Follows r name c images
  | lost : r.handles.get? name = none → r.leases.get? name = none → Follows r name c images

-- What is read through the name, is read through this handle.
def reader? (r : Rig) (name : String) : Option SyntheticHandle :=
  ((r.leases.get? name).map (·.handle)).or (r.handles.get? name)

theorem readNamed_answer (r : Rig) (name : String) (timeout : Duration) :
    (r.readNamed name timeout).map (·.1) = (r.reader? name).map fun h =>
      ((r.cameras.get h.camera).readImage h timeout).1 := by
  unfold readNamed reader?
  cases r.leases.get? name <;> cases r.handles.get? name <;> rfl

theorem answer_read_iff {image : Image} : (r.step (.read name timeout)).1 = .image image ↔
    (r.readNamed name timeout).map (·.1) = some (.ok image) := by
  rw [← r.settle_opening.readNamed]
  have hact : (r.step (.read name timeout)).1 = (r.act (.read name timeout)).1 := rfl
  rw [hact, act]
  cases r.settle.readNamed name timeout
  case none => simp
  case some result =>
    obtain ⟨answer, s⟩ := result
    cases answer <;> simp

namespace Follows

theorem same (h : r.Follows name c k) (hh : s.handles.get? name = r.handles.get? name)
    (hl : s.leases.get? name = r.leases.get? name) : s.Follows name c k := by
  cases h
  case alone h l hc ht  => exact .alone (hh.trans h) (hl.trans l) hc ht
  case leased h l hc ht => exact .leased (hh.trans h) (hl.trans l) hc ht
  case lost h l         => exact .lost (hh.trans h) (hl.trans l)

theorem reader (h : r.Follows name c k) {handle : SyntheticHandle}
    (hr : r.reader? name = some handle) : handle.camera = c ∧ handle.tick = k := by
  unfold reader? at hr
  cases h
  case alone hh hl hc ht =>
    rw [hh, hl] at hr
    cases hr
    exact ⟨hc, ht⟩
  case leased hh hl hc ht =>
    rw [hh, hl] at hr
    cases hr
    exact ⟨hc, ht⟩
  case lost hh hl =>
    rw [hh, hl] at hr
    cases hr

-- A read counts if it is made through this name and gives an image.
theorem readNamed {answer : Except SourceError Image} (h : r.Follows name c k)
    (hr : r.readNamed other timeout = some (answer, s)) :
    s.Follows name c (k + (other = name && answer.isOk).toNat) := by
  unfold Rig.readNamed at hr
  by_cases hn : name = other
  case neg =>
    rw [decide_eq_false (Ne.symm hn)]
    split at hr
    case h_1 => cases hr; exact h.same rfl (Named.get?_modify_of_ne hn)
    case h_2 => cases hr; exact h.same (Named.get?_modify_of_ne hn) rfl
    case h_3 => cases hr
  case pos =>
    subst hn
    cases h
    case alone hh hl hc ht =>
      rw [hh, hl] at hr
      cases hr
      refine .alone (Named.get?_modify_of_get? hh) hl ?_ ?_
      all_goals simp [SyntheticCamera.readImage_handle, hc, ht]
    case leased hh hl hc ht =>
      rw [hl] at hr
      cases hr
      refine .leased hh (Named.get?_modify_of_get? hl) ?_ ?_
      all_goals simp [SyntheticCamera.readImage_handle, hc, ht]
    case lost hh hl =>
      rw [hh, hl] at hr
      cases hr

-- What is read through the name, is read from the camera through a handle after so many images.
theorem readNamed_eq (h : r.Follows name c k) {answer : Except SourceError Image}
    (hr : r.readNamed name timeout = some (answer, s)) : ∃ handle,
      r.reader? name = some handle ∧ handle.camera = c ∧ handle.tick = k ∧
      ((r.cameras.get c).readImage handle timeout).1 = answer := by
  have ha := r.readNamed_answer name timeout
  rw [hr, Option.map_some, eq_comm, Option.map_eq_some_iff] at ha
  obtain ⟨handle, hh, ha⟩ := ha
  have ⟨hc, ht⟩ := h.reader hh
  exact ⟨handle, hh, hc, ht, hc ▸ ha⟩

theorem peek_answer (h : r.Follows name c k) (hp : (r.cameras.get c).HasPixels)
    {answer : Except SourceError Image} (hr : r.readNamed name timeout = some (answer, s)) :
    SourceError.peek s.jpeg answer =
      .ok (answer.bind fun _ => .ok (r.cameras.get c).steadyLuma) := by
  obtain ⟨handle, _, _, _, rfl⟩ := h.readNamed_eq hr
  rw [SyntheticCamera.peek_readImage, SyntheticCamera.told_of_hasPixels hp]

theorem opening {opened kept : List Camera} (h : r.Follows name c k)
    (ho : r.Opening opened kept s) : s.Follows name c k :=
  h.same (congrArg (·.get? name) ho.handles) (congrArg (·.get? name) ho.leases)

theorem probe {patience : Patience} (h : r.Follows name c k) :
    (r.probe d patience timeout).2.1.Follows name c k := by
  have hp := r.probe_cases d patience timeout
  generalize r.probe d patience timeout = result at hp ⊢
  cases hp
  case claimed => exact h
  case refused ho =>
    exact h.same (congrArg (·.get? name) ho.handles) (congrArg (·.get? name) ho.leases)
  case opened _ _ _ ho =>
    exact h.same (congrArg (·.get? name) ho.handles) (congrArg (·.get? name) ho.leases)

-- The handle goes into a lease if there is a claim, and else it is lost.
theorem makeLease (h : r.Follows name c k) (other : String) :
    (r.makeLease other).2.1.Follows name c k := by
  unfold Rig.makeLease
  by_cases hn : name = other
  case neg =>
    cases r.handles.get? other <;> cases r.held.get? other
    case some.some => exact h.same (Named.get?_erase_of_ne hn) (Named.get?_put_of_ne hn)
    all_goals exact h.same (Named.get?_erase_of_ne hn) rfl
  case pos =>
    subst hn
    cases h
    case alone hh hl hc ht =>
      rw [hh]
      cases r.held.get? name
      case none => exact .lost Named.get?_erase_self hl
      case some => exact .leased Named.get?_erase_self Named.get?_put_self hc ht
    case leased hh hl hc ht =>
      rw [hh]
      cases r.held.get? name
      all_goals exact .leased Named.get?_erase_self hl hc ht
    case lost hh hl =>
      rw [hh]
      cases r.held.get? name
      all_goals exact .lost Named.get?_erase_self hl

theorem closeHandle (h : r.Follows name c k) (other : String) :
    Follows { r with handles := r.handles.modify other (·.shut) } name c k := by
  by_cases hn : name = other
  case neg => exact h.same (Named.get?_modify_of_ne hn) rfl
  case pos =>
    subst hn
    cases h
    case alone hh hl hc ht  => exact .alone (Named.get?_modify_of_get? hh) hl hc ht
    case leased hh hl hc ht => exact .leased (Named.get?_modify.trans (congrArg _ hh)) hl hc ht
    case lost hh hl         => exact .lost (Named.get?_modify.trans (congrArg _ hh)) hl

theorem dropHandle (h : r.Follows name c k) (other : String) :
    Follows { r with handles := r.handles.erase other } name c k := by
  by_cases hn : name = other
  case neg => exact h.same (Named.get?_erase_of_ne hn) rfl
  case pos =>
    subst hn
    cases h
    case alone hl _ _       => exact .lost Named.get?_erase_self hl
    case leased hh hl hc ht => exact .leased Named.get?_erase_self hl hc ht
    case lost hl            => exact .lost Named.get?_erase_self hl

theorem release (h : r.Follows name c k) (other : String) :
    Follows { r with leases := r.leases.erase other } name c k := by
  by_cases hn : name = other
  case neg => exact h.same rfl (Named.get?_erase_of_ne hn)
  case pos =>
    subst hn
    cases h
    case alone hh hl hc ht => exact .alone hh Named.get?_erase_self hc ht
    case leased hh _ _ _   => exact .lost hh Named.get?_erase_self
    case lost hh _         => exact .lost hh Named.get?_erase_self

-- What an operation does to the name shows in its answer.
theorem act (h : r.Follows name c k) (hp : (r.cameras.get c).HasPixels)
    (ha : ¬ action.reopens name) : (r.act action).2.1.Follows name c
      (k + (readsThrough name (action, (r.act action).1)).toNat) := by
  replace hp := hp.of_size (r.settle_opening.size c)
  replace h := h.opening r.settle_opening
  cases action
  case setBrightness | setFailOpen | setFailReads | setReadDelay | inspect => exact h.same rfl rfl
  case openHandle other d device patience =>
    have ho := r.settle.openDevice_opens d device patience
    simp only [Rig.act]
    generalize r.settle.openDevice d device patience = result at ho ⊢
    cases ho
    case error ho => exact h.opening ho
    case ok ho =>
      have hn : other ≠ name := of_decide_eq_false (Bool.not_eq_true _ ▸ ha)
      exact (h.opening ho).same (Named.get?_put_of_ne hn.symm) rfl
  case read other timeout =>
    simp only [Rig.act]
    cases hr : r.settle.readNamed other timeout
    case none => exact h
    case some result =>
      obtain ⟨answer, s⟩ := result
      cases answer
      all_goals simpa [readsThrough, Except.isOk, Except.toBool] using h.readNamed hr
  case peek other timeout =>
    simp only [Rig.act]
    cases hr : r.settle.readNamed other timeout
    case none => exact h
    case some result =>
      obtain ⟨answer, s⟩ := result
      have hs := h.readNamed hr
      dsimp only
      by_cases hn : other = name
      case neg =>
        obtain _ | _ | _ := SourceError.peek s.jpeg answer
        all_goals simpa [readsThrough, hn] using hs
      case pos =>
        rw [h.peek_answer hp (hn ▸ hr)]
        cases answer
        all_goals simpa [readsThrough, hn, Except.isOk, Except.toBool, Except.bind] using hs
  case close other =>
    simp only [Rig.act]
    split
    case h_1 => exact h.closeHandle other
    case h_2 => exact h
  case drop other =>
    simp only [Rig.act]
    split
    case h_1 => exact h.dropHandle other
    case h_2 => exact h
  case claim | unclaim =>
    simp only [Rig.act]
    split
    case h_1 => exact h.same rfl rfl
    case h_2 => exact h
  case lease other =>
    have hm := h.makeLease other
    simp only [Rig.act]
    split
    all_goals
      rename_i he
      rw [he] at hm
      exact hm
  case release other =>
    simp only [Rig.act]
    split
    case h_1 => exact h.release other
    case h_2 => exact h
  case probe => rw [act_probe]; exact h.probe

theorem finish (h : r.Follows name c k) (chores : List Chore) :
    (r.finish chores).Follows name c k := by
  induction chores generalizing r
  case nil => exact h
  case cons chore chores ih =>
    refine ih (h.same ?_ ?_)
    all_goals cases chore <;> rfl

theorem step (h : r.Follows name c k) (hp : (r.cameras.get c).HasPixels)
    (ha : ¬ action.reopens name) : (r.step action).2.Follows name c
      (k + (readsThrough name (action, (r.step action).1)).toNat) :=
  (h.act hp ha).finish _

theorem run {actions : List Action} (h : r.Follows name c k) (hp : (r.cameras.get c).HasPixels)
    (ha : ∀ action ∈ actions, ¬ action.reopens name) : (r.run actions).Follows name c
      (k + (r.history actions).countP (readsThrough name)) := by
  induction actions generalizing r k
  case nil => exact h
  case cons action actions ih =>
    have ⟨hhead, htail⟩ := List.forall_mem_cons.mp ha
    have hs := ih (h.step hp hhead) (hp.of_size (r.size_step action c)) htail
    have hcount : k + (r.history (action :: actions)).countP (readsThrough name) =
        k + (readsThrough name (action, (r.step action).1)).toNat +
          ((r.step action).2.history actions).countP (readsThrough name) := by
      rw [history, List.countP_cons]
      cases readsThrough name (action, (r.step action).1)
      case false => rfl
      case true  => exact Nat.add_right_comm k _ 1
    exact hcount ▸ hs

-- A new handle has shown no image.
theorem opened {device : Device} {patience : Option Patience}
    (ho : (r.step (.openHandle name c device patience)).1 = .opened)
    (hl : r.leases.get? name = none) :
    (r.step (.openHandle name c device patience)).2.Follows name c 0 := by
  refine finish ?_ _
  replace ho : (r.act (.openHandle name c device patience)).1 = .opened := ho
  have hs := r.settle.openDevice_opens c device patience
  simp only [Rig.act] at ho ⊢
  generalize r.settle.openDevice c device patience = result at ho hs ⊢
  cases hs
  case error => cases ho
  case ok hs =>
    have hsl := congrArg (·.get? name) (hs.leases.trans r.settle_opening.leases)
    exact .alone Named.get?_put_self (hsl.trans hl) rfl rfl

-- There is an image as long as the handle is open and the camera neither fails nor is too slow.
theorem read_iff (h : r.Follows name c k) {image : Image} :
    (r.step (.read name timeout)).1 = .image image ↔
      ((∃ handle, r.reader? name = some handle ∧ handle.closed = false) ∧
        ¬ timeout < (r.cameras.get c).readDelay ∧ (r.cameras.get c).failReads = false) ∧
      (r.cameras.get c).render (k + 1) = image := by
  have hread : (r.step (.read name timeout)).1 = .image image ↔ ∃ handle,
      r.reader? name = some handle ∧
      ((r.cameras.get handle.camera).readImage handle timeout).1 = .ok image := by
    rw [answer_read_iff, readNamed_answer, Option.map_eq_some_iff]
  rw [hread]
  constructor
  case mp =>
    intro ⟨handle, hr, hi⟩
    obtain ⟨rfl, rfl⟩ := h.reader hr
    have ⟨⟨hopen, hcamera⟩, himage⟩ := SyntheticCamera.readImage_eq_ok_iff.mp hi
    exact ⟨⟨⟨handle, hr, hopen⟩, hcamera⟩, himage⟩
  case mpr =>
    intro ⟨⟨⟨handle, hr, hopen⟩, hcamera⟩, himage⟩
    obtain ⟨rfl, rfl⟩ := h.reader hr
    exact ⟨handle, hr, SyntheticCamera.readImage_eq_ok_iff.mpr ⟨⟨hopen, hcamera⟩, himage⟩⟩

theorem peek_value (h : r.Follows name c k) (hp : (r.cameras.get c).HasPixels) {value : Float}
    (hv : (r.step (.peek name timeout)).1 = .value value) :
    value = (r.cameras.get c).steadyLuma := by
  have ho := r.settle_opening
  replace hv : (r.act (.peek name timeout)).1 = .value value := hv
  simp only [Rig.act] at hv
  cases hr : r.settle.readNamed name timeout
  case none =>
    rw [hr] at hv
    cases hv
  case some result =>
    obtain ⟨answer, s⟩ := result
    rw [hr] at hv
    dsimp only at hv
    rw [(h.opening ho).peek_answer (hp.of_size (ho.size c)) hr, ho.cameras] at hv
    cases answer
    case error => cases hv
    case ok    => exact (Answer.value.inj hv).symm

end Follows

theorem delay_lt_of_probe {patience : Patience} {value : Float}
    (h : (r.probe c patience timeout).1 = .ok (some value)) : patience.delay < patience.limit := by
  have hp := r.probe_cases c patience timeout
  generalize r.probe c patience timeout = result at hp h
  cases hp
  case claimed     => cases h
  case refused     => cases h
  case opened hl _ => exact not_not.mp hl

-- A probe tells what every image of the camera would.
theorem probe_value {patience : Patience} {value : Float}
    (hv : (r.step (.probe d patience timeout)).1 = .sample (some (c, value))) :
    value = (r.cameras.get d).steadyLuma := by
  have ho := r.settle_opening
  have hread : (r.settle.probe d patience timeout).1 = .ok (some value) := by
    obtain ⟨reading, hr, hs⟩ := step_probe hv
    obtain ⟨_, rfl, hpair⟩ := Option.map_eq_some_iff.mp hs.symm
    rw [hr, (Prod.mk.inj hpair).2]
  obtain ⟨image, hr, hl⟩ := image_of_probe (delay_lt_of_probe hread) hread
  rw [ho.readImage] at hr
  obtain ⟨_, rfl⟩ := SyntheticCamera.readImage_eq_ok_iff.mp hr
  have hl := hl .blind
  rw [SyntheticCamera.luma_render] at hl
  split at hl
  case isTrue  => cases hl
  case isFalse => exact (Except.ok.inj hl).symm

-- The k-th image that is read through a handle is grey, with the bright column at k, however many
-- reads failed before it and whatever else was done. Its pixels add up to the same for every k, and
-- a probe of the camera, or a peek through the handle, tells the brightness of any image of it. The
-- next image is read unless the handle is gone or closed, or the camera fails or is too slow.
theorem images_through_handle (r : Rig) (name : String) (c : Camera) (device : Device)
    (patience : Option Patience) (actions : List Action)
    (hpixels : (r.cameras.get c).HasPixels) (hfree : r.leases.get? name = none)
    (hopened : (r.step (.openHandle name c device patience)).1 = .opened)
    (hkept : ∀ action ∈ actions, ¬ action.reopens name) :
    let start := (r.step (.openHandle name c device patience)).2
    let images := (start.history actions).countP (readsThrough name)
    let s := start.run actions
    let camera := s.cameras.get c
    let width := (r.cameras.get c).width.toNat
    let height := (r.cameras.get c).height.toNat
    let level := camera.level.toNat
    let sum := height * ((width - 1) * level + min (level + 32) 255)
    let mean := Float.ofNat sum / Float.ofNat (width * height)
    (∀ timeout image, (s.step (.read name timeout)).1 = .image image →
      image.width.toNat = width ∧ image.height.toNat = height ∧
      image.ShowsBar camera.level ((images + 1) % width) ∧
      (image.data.map (·.toNat)).sum = sum ∧ ∀ jpeg, image.luma jpeg = .ok mean) ∧
    (∀ timeout, (∃ image, (s.step (.read name timeout)).1 = .image image) ↔
      (∃ handle, s.reader? name = some handle ∧ handle.closed = false) ∧
      ¬ timeout < camera.readDelay ∧ camera.failReads = false) ∧
    (∀ timeout value, (s.step (.peek name timeout)).1 = .value value → value = mean) ∧
    ∀ patience timeout value,
      (s.step (.probe c patience timeout)).1 = .sample (some (c, value)) → value = mean := by
  intro start images s camera width height level sum mean
  have hstart : (start.cameras.get c).size = (r.cameras.get c).size := r.size_step _ c
  have hsize : camera.size = (r.cameras.get c).size := (start.size_run actions c).trans hstart
  have hp : camera.HasPixels := hpixels.of_size hsize
  have hs : s.Follows name c images :=
    Nat.zero_add images ▸ (Follows.opened hopened hfree).run (hpixels.of_size hstart) hkept
  have hw : camera.width.toNat = width := congrArg (·.1.toNat) hsize
  have hh : camera.height.toNat = height := congrArg (·.2.toNat) hsize
  have hmean : camera.steadyLuma = mean := by
    unfold SyntheticCamera.steadyLuma
    rw [hw, hh]
  refine ⟨fun timeout image hi => ?_, fun timeout => ?_, fun timeout value hv => ?_,
    fun patience timeout value hv => ?_⟩
  · obtain ⟨_, rfl⟩ := hs.read_iff.mp hi
    refine ⟨hw, hh, ?_, ?_, ?_⟩
    · exact hw ▸ camera.showsBar_render (images + 1)
    · rw [SyntheticCamera.sum_render hp, hw, hh]
    · intro jpeg
      rw [SyntheticCamera.luma_render, if_neg (SyntheticCamera.hasPixels_iff.mp hp), hmean]
  · simp only [hs.read_iff, exists_and_left, exists_eq', and_true]
    rfl
  · exact (hs.peek_value hp hv).trans hmean
  · exact (probe_value hv).trans hmean

-- The night camera is too slow once and fails once.
def interrupted : List Action :=
  [.setReadDelay .night ⟨2000000⟩, .read "a" .zero, .setReadDelay .night .zero, .read "a" .zero,
    .setFailReads .night true, .read "a" .zero, .setFailReads .night false]

theorem second_image_after_failures :
    let s := ((new .blind 4 2).step (.openHandle "a" .night (device .night) none)).2.run interrupted
    ∃ image, (s.step (.read "a" .zero)).1 = .image image ∧ image.ShowsBar 20 2 ∧
      (image.data.map (·.toNat)).sum = 2 * (3 * 20 + 52) ∧ ∀ jpeg, image.luma jpeg = .ok 28 := by
  intro s
  have ⟨himage, hread, _⟩ := images_through_handle (new .blind 4 2) "a" .night (device .night)
    none interrupted ⟨by decide, by decide⟩ rfl rfl (by decide +kernel)
  have hopen : ∃ handle, s.reader? "a" = some handle ∧ handle.closed = false :=
    ⟨⟨.night, 1, false⟩, by decide +kernel, rfl⟩
  obtain ⟨image, hi⟩ := (hread .zero).mpr ⟨hopen, by decide +kernel, by decide +kernel⟩
  have ⟨_, _, hbar, hsum, hluma⟩ := himage .zero image hi
  have hlevel : (s.cameras.get .night).level = 20 := by decide +kernel
  refine ⟨image, hi, ?_, ?_, ?_⟩
  · rw [← hlevel]
    exact hbar
  · rw [hsum, hlevel]
    rfl
  · intro jpeg
    rw [hluma, hlevel]
    rfl

end Rig

end DayNight
