import DayNight.Gate.Outlet
import DayNight.Proofs.Channel.Backends
import Mathlib.Data.List.DropRight

namespace DayNight.Outlet

namespace Action

def closes : Action → Bool
  | close => true
  | _ => false

def switch? : Action → Option (Camera × UInt32)
  | switchTo camera warmup => some (camera, warmup)
  | _ => none

def isOfferOf (camera : Camera) : Action → Bool
  | offer c _ => c = camera
  | _ => false

end Action

section History

variable (first : Camera) (history : List Action)

def wasClosed : Bool := history.any Action.closes

-- The camera that the gate was switched to last, and the frames that it needed to warm up. The
-- gate's first camera needed none.
def lastSwitch : Camera × UInt32 := ((history.filterMap Action.switch?).getLast?).getD (first, 0)

-- How many frames a camera has offered since the last switch, whatever came of them.
def offersSince (camera : Camera) : Nat :=
  (history.rtakeWhile fun action => action.switch?.isNone).countP (Action.isOfferOf camera)

end History

-- What is to become of a frame.
inductive Verdict
  | closed
  | inactive
  | warmingUp (left : UInt32)
  | handedOn
  deriving DecidableEq, Repr

def verdict (first : Camera) (history : List Action) (camera : Camera) : Verdict :=
  let (active, warmup) := lastSwitch first history
  let offers := offersSince history camera
  if wasClosed history then .closed
  else if camera ≠ active then .inactive
  else if offers < warmup.toNat then .warmingUp (.ofNat (warmup.toNat - 1 - offers))
  else .handedOn

-- What a verdict means for a frame.
def offered (s : Outlet) (frame : Frame) : Verdict → Answer × Outlet
  | .closed => (.offered (.ok .closed), s)
  | .inactive => (.offered (.ok .inactive), s)
  | .warmingUp left =>
    (.offered (.ok (.warmingUp left)), { s with gate := { s.gate with warmupLeft := left } })
  | .handedOn => (.offered ((s.frames.publish frame).1.map .published),
    { s with frames := (s.frames.publish frame).2 })

def Answer.isRefusal : Answer → Bool
  | offered (.error _) => true
  | published (.error _) => true
  | _ => false

section

variable {first camera : Camera} {history : List Action} {action : Action}

theorem wasClosed_concat :
    wasClosed (history ++ [action]) = (wasClosed history || action.closes) := by
  simp [wasClosed]

theorem lastSwitch_concat (h : action.switch? = none) :
    lastSwitch first (history ++ [action]) = lastSwitch first history := by
  simp [lastSwitch, h]

theorem lastSwitch_concat_switch (warmup : UInt32) :
    lastSwitch first (history ++ [.switchTo camera warmup]) = (camera, warmup) := by
  simp [lastSwitch, Action.switch?]

theorem offersSince_concat (h : action.switch? = none) :
    offersSince (history ++ [action]) camera =
      offersSince history camera + if action.isOfferOf camera then 1 else 0 := by
  rw [offersSince, List.rtakeWhile_concat_pos _ _ _ (by simp [h]), List.countP_append, offersSince]
  simp [List.countP_cons]

theorem offersSince_concat_switch (warmup : UInt32) {other : Camera} :
    offersSince (history ++ [.switchTo other warmup]) camera = 0 := by
  rw [offersSince, List.rtakeWhile_concat_neg _ _ _ (by simp [Action.switch?])]
  rfl

theorem verdict_of_closed (h : wasClosed history) : verdict first history camera = .closed := by
  simp [verdict, h]

theorem verdict_of_inactive (ho : ¬ wasClosed history)
    (h : camera ≠ (lastSwitch first history).1) : verdict first history camera = .inactive := by
  simp [verdict, ho, h]

theorem verdict_of_cold (ho : ¬ wasClosed history) (hc : camera = (lastSwitch first history).1)
    (h : offersSince history camera < (lastSwitch first history).2.toNat) :
    verdict first history camera = .warmingUp
      (.ofNat ((lastSwitch first history).2.toNat - 1 - offersSince history camera)) := by
  simp [verdict, ho, ← hc, h]

theorem verdict_of_warm (ho : ¬ wasClosed history) (hc : camera = (lastSwitch first history).1)
    (h : (lastSwitch first history).2.toNat ≤ offersSince history camera) :
    verdict first history camera = .handedOn := by
  simp [verdict, ho, ← hc, Nat.not_lt.mpr h]

end

end Outlet

namespace Gate

variable {g : Gate} {camera : Camera} {frame : Frame} {frames : FrameChannel}

theorem publish_of_closed (h : ¬ g.isOpen) :
    g.publish camera frame frames = (.ok .closed, g, frames) := by
  simp [publish, h]

theorem publish_of_inactive (ho : g.isOpen) (h : camera ≠ g.active) :
    g.publish camera frame frames = (.ok .inactive, g, frames) := by
  simp [publish, ho, h]

theorem publish_of_cold (ho : g.isOpen) (hc : camera = g.active) (h : 0 < g.warmupLeft) :
    g.publish camera frame frames =
      (.ok (.warmingUp (g.warmupLeft - 1)), { g with warmupLeft := g.warmupLeft - 1 }, frames) := by
  simp [publish, ho, hc, h]

theorem publish_of_warm (ho : g.isOpen) (hc : camera = g.active) (h : g.warmupLeft = 0) :
    g.publish camera frame frames =
      ((frames.publish frame).1.map .published, g, (frames.publish frame).2) := by
  simp [publish, ho, hc, h]

theorem error_of_map {ε α β : Type} {f : α → β} {outcome : Except ε α} {e : ε}
    (h : outcome.map f = .error e) : outcome = .error e := by
  cases outcome
  case error => exact congrArg Except.error (Except.error.inj h)
  case ok    => cases h

-- What a channel refuses is not put into it, and does not count for the warm-up.
theorem publish_of_error {e : ChannelError} (h : (g.publish camera frame frames).1 = .error e) :
    (g.publish camera frame frames).2.1 = g ∧
    (g.publish camera frame frames).2.2.backend = frames.backend := by
  unfold publish at h ⊢
  split
  case isTrue ho => simp [ho] at h
  case isFalse ho =>
    split
    case isTrue hc => simp [ho, hc] at h
    case isFalse hc =>
      split
      case isTrue hw => simp [ho, hc, hw] at h
      case isFalse hw =>
        have hr : (frames.publish frame).1 = .error e :=
          error_of_map (by simpa [ho, hc, hw] using h)
        exact ⟨rfl, by rw [Channel.publish_of_error hr]⟩

theorem publishIfOpen_of_error {α : Type} [Record α] {c : Channel α} {value : α}
    {e : ChannelError} (h : (g.publishIfOpen value c).1 = .error e) :
    (g.publishIfOpen value c).2.backend = c.backend := by
  unfold publishIfOpen at h ⊢
  split
  case isTrue ho =>
    have hr : (c.publish value).1 = .error e := error_of_map (by simpa [ho] using h)
    rw [Channel.publish_of_error hr]
  case isFalse => rfl

end Gate

namespace Outlet

variable {first camera : Camera} {history : List Action} {action : Action} {o : Outlet}

-- What the gate keeps of what has been done to it. Once it is closed, the warm-up stands still.
structure Remembers (first : Camera) (history : List Action) (g : Gate) : Prop where
  isOpen : g.isOpen = !wasClosed history
  active : g.active = (lastSwitch first history).1
  warmup : g.isOpen → g.warmupLeft.toNat =
    (lastSwitch first history).2.toNat - offersSince history g.active

namespace Remembers

variable {g : Gate}

theorem openFor : Remembers first [] (.openFor first) := ⟨rfl, rfl, fun _ => rfl⟩

-- Nothing was done that the gate has to keep.
theorem other (h : Remembers first history g) (hs : action.switch? = none)
    (hc : action.closes = false) (ho : action.isOfferOf g.active = false) :
    Remembers first (history ++ [action]) g where
  isOpen := by rw [wasClosed_concat, hc, Bool.or_false, h.isOpen]
  active := by rw [lastSwitch_concat hs, h.active]
  warmup := by
    intro hi
    rw [lastSwitch_concat hs, offersSince_concat hs, ho, h.warmup hi]
    rfl

theorem switchTo (h : Remembers first history g) (camera : Camera) (warmup : UInt32) :
    Remembers first (history ++ [.switchTo camera warmup]) (g.switchTo camera warmup) where
  isOpen := by rw [wasClosed_concat, show (Action.switchTo camera warmup).closes = false from rfl,
    Bool.or_false, ← h.isOpen]; rfl
  active := by rw [lastSwitch_concat_switch]; rfl
  warmup := fun _ => by rw [lastSwitch_concat_switch, offersSince_concat_switch]; rfl

theorem close (h : Remembers first history g) : Remembers first (history ++ [.close]) g.close where
  isOpen := by rw [wasClosed_concat, show Action.close.closes = true from rfl, Bool.or_true]; rfl
  active := by rw [lastSwitch_concat rfl, ← h.active]; rfl
  warmup := nofun

theorem offer (h : Remembers first history g) (camera : Camera) (frame : Frame)
    (frames : FrameChannel) : Remembers first (history ++ [.offer camera frame])
      (g.publish camera frame frames).2.1 where
  isOpen := by rw [wasClosed_concat, Gate.publish_gate.1,
    show (Action.offer camera frame).closes = false from rfl, Bool.or_false, h.isOpen]
  active := by rw [lastSwitch_concat rfl, Gate.publish_gate.2, h.active]
  warmup := by
    intro hi
    rw [Gate.publish_gate.1] at hi
    rw [lastSwitch_concat rfl, offersSince_concat rfl, Gate.publish_gate.2, Action.isOfferOf]
    have hw := h.warmup hi
    by_cases hc : camera = g.active
    case neg => simp [Gate.publish_of_inactive hi hc, hc, hw]
    case pos =>
      simp only [hc, decide_true, if_true, ← Nat.sub_sub, ← hw]
      by_cases h0 : g.warmupLeft = 0
      case pos =>
        rw [Gate.publish_of_warm hi rfl h0, h0]
        rfl
      case neg =>
        have hp : 0 < g.warmupLeft := UInt32.pos_iff_ne_zero.mpr h0
        rw [Gate.publish_of_cold hi rfl hp]
        exact UInt32.toNat_sub_of_le _ _ (UInt32.lt_iff_toNat_lt.mp hp)

theorem step (h : Remembers first history o.gate) (action : Action) :
    Remembers first (history ++ [action]) (o.step action).2.gate := by
  cases action
  case offer camera frame     => exact h.offer camera frame _
  case publish                => exact h.other rfl rfl rfl
  case publishFrame           => exact h.other rfl rfl rfl
  case switchTo camera warmup => exact h.switchTo camera warmup
  case close                  => exact h.close

end Remembers

theorem run_concat (o : Outlet) (history : List Action) (action : Action) :
    o.run (history ++ [action]) =
      ((o.run history).1 ++ [((o.run history).2.step action).1],
        ((o.run history).2.step action).2) := by
  induction history generalizing o
  case nil                   => rfl
  case cons action' rest ih => simp [run, ih]

theorem run_remembers (h : o.gate = .openFor first) (history : List Action) :
    Remembers first history (o.run history).2.gate := by
  induction history using List.reverseRecOn
  case nil                             => exact h ▸ .openFor
  case append_singleton history action ih => rw [run_concat]; exact ih.step action

-- The gate acts on what it remembers.
theorem Remembers.offered (h : Remembers first history o.gate) (camera : Camera) (frame : Frame) :
    o.step (.offer camera frame) = o.offered frame (verdict first history camera) := by
  rw [Outlet.step]
  by_cases ho : o.gate.isOpen
  case neg =>
    have hc : wasClosed history := by simpa [ho] using h.isOpen
    rw [Gate.publish_of_closed ho, verdict_of_closed hc]
    rfl
  case pos =>
    have hc : ¬ wasClosed history := by simpa [ho] using h.isOpen
    by_cases ha : camera = o.gate.active
    case neg =>
      rw [Gate.publish_of_inactive ho ha, verdict_of_inactive hc (h.active ▸ ha)]
      rfl
    case pos =>
      have hl := ha ▸ h.warmup ho
      by_cases h0 : o.gate.warmupLeft = 0
      case pos =>
        have hz : o.gate.warmupLeft.toNat = 0 := congrArg UInt32.toNat h0
        rw [Gate.publish_of_warm ho ha h0, verdict_of_warm hc (h.active ▸ ha) (by omega)]
        rfl
      case neg =>
        have hp : 0 < o.gate.warmupLeft := UInt32.pos_iff_ne_zero.mpr h0
        have hn : 0 < o.gate.warmupLeft.toNat := UInt32.lt_iff_toNat_lt.mp hp
        have hw : o.gate.warmupLeft - 1 =
            .ofNat ((lastSwitch first history).2.toNat - 1 - offersSince history camera) := by
          rw [Nat.sub_right_comm, ← hl, UInt32.ofNat_sub hn, UInt32.ofNat_toNat]
          rfl
        rw [Gate.publish_of_cold ho ha hp, verdict_of_cold hc (h.active ▸ ha) (by omega), hw]
        rfl

-- What a closed gate keeps back, and an open one publishes whatever camera is active.
theorem Remembers.published (h : Remembers first history o.gate) (detection : Detection)
    (frame : Frame) :
    (o.step (.publish detection) =
      if wasClosed history then (.published (.ok none), o)
      else (.published ((o.detections.publish detection).1.map some),
        { o with detections := (o.detections.publish detection).2 })) ∧
    o.step (.publishFrame frame) =
      if wasClosed history then (.published (.ok none), o)
      else (.published ((o.frames.publish frame).1.map some),
        { o with frames := (o.frames.publish frame).2 }) := by
  by_cases hc : wasClosed history
  all_goals simp [Outlet.step, Gate.publishIfOpen, h.isOpen, hc]

theorem step_closed (h : o.gate.isOpen = false) : (o.step action).2.gate.isOpen = false := by
  cases action
  case offer => exact Gate.publish_gate.1.trans h
  case close => rfl
  all_goals exact h

-- A refusal leaves the gate and what is stored as they were.
theorem step_refused (h : (o.step action).1.isRefusal) :
    (o.step action).2.gate = o.gate ∧
    (o.step action).2.frames.backend = o.frames.backend ∧
    (o.step action).2.detections.backend = o.detections.backend := by
  cases action
  case offer camera frame =>
    cases hp : (o.gate.publish camera frame o.frames).1
    case error e =>
      have ⟨hg, hb⟩ := Gate.publish_of_error hp
      exact ⟨hg, hb, rfl⟩
    case ok => simp [step, hp, Answer.isRefusal] at h
  case publish detection =>
    cases hp : (o.gate.publishIfOpen detection o.detections).1
    case error e => exact ⟨rfl, rfl, Gate.publishIfOpen_of_error hp⟩
    case ok      => simp [step, hp, Answer.isRefusal] at h
  case publishFrame frame =>
    cases hp : (o.gate.publishIfOpen frame o.frames).1
    case error e => exact ⟨rfl, Gate.publishIfOpen_of_error hp, rfl⟩
    case ok      => simp [step, hp, Answer.isRefusal] at h
  all_goals cases h

-- Frames get into their channel by these ways only,
theorem Remembers.frames_change (h : Remembers first history o.gate)
    (hf : (o.step action).2.frames ≠ o.frames) : ¬ wasClosed history ∧
      ((∃ camera frame, action = .offer camera frame ∧
        verdict first history camera = .handedOn) ∨ ∃ frame, action = .publishFrame frame) := by
  cases action
  case offer camera frame =>
    rw [h.offered] at hf
    cases hv : verdict first history camera
    case handedOn =>
      refine ⟨fun hc => ?_, .inl ⟨camera, frame, rfl, hv⟩⟩
      rw [verdict_of_closed hc] at hv
      cases hv
    all_goals exact absurd (by rw [hv]; rfl) hf
  case publishFrame frame =>
    refine ⟨fun hc => hf ?_, .inr ⟨frame, rfl⟩⟩
    simp [(h.published default frame).2, hc]
  all_goals exact absurd rfl hf

-- and detections by this one.
theorem Remembers.detections_change (h : Remembers first history o.gate)
    (hd : (o.step action).2.detections ≠ o.detections) :
    ¬ wasClosed history ∧ ∃ detection, action = .publish detection := by
  cases action
  case publish detection =>
    refine ⟨fun hc => hd ?_, detection, rfl⟩
    simp [(h.published detection default).1, hc]
  all_goals exact absurd rfl hd

-- What any next action does can be told from the actions so far.
theorem step_by_history (first : Camera) (frames : FrameChannel) (detections : DetectionChannel)
    (history : List Action) :
    let s := (Outlet.run ⟨.openFor first, frames, detections⟩ history).2
    (∀ camera frame, s.step (.offer camera frame) =
      s.offered frame (verdict first history camera)) ∧
    (∀ detection, s.step (.publish detection) =
      if wasClosed history then (.published (.ok none), s)
      else (.published ((s.detections.publish detection).1.map some),
        { s with detections := (s.detections.publish detection).2 })) ∧
    (∀ frame, s.step (.publishFrame frame) =
      if wasClosed history then (.published (.ok none), s)
      else (.published ((s.frames.publish frame).1.map some),
        { s with frames := (s.frames.publish frame).2 })) ∧
    ∀ action,
      ((s.step action).2.frames ≠ s.frames → ¬ wasClosed history ∧
        ((∃ camera frame, action = .offer camera frame ∧
          verdict first history camera = .handedOn) ∨ ∃ frame, action = .publishFrame frame)) ∧
      ((s.step action).2.detections ≠ s.detections →
        ¬ wasClosed history ∧ ∃ detection, action = .publish detection) ∧
      ((s.step action).1.isRefusal → (s.step action).2.gate = s.gate ∧
        (s.step action).2.frames.backend = s.frames.backend ∧
        (s.step action).2.detections.backend = s.detections.backend) ∧
      (wasClosed history → (s.step action).2.gate.isOpen = false) := by
  intro s
  have h : Remembers first history s.gate := run_remembers rfl history
  refine ⟨h.offered, fun detection => (h.published detection default).1,
    fun frame => (h.published default frame).2, fun action =>
      ⟨h.frames_change, h.detections_change, step_refused, fun hc => step_closed ?_⟩⟩
  rw [h.isOpen, hc]
  rfl

-- A switch to the active camera starts its warm-up over; the other camera's frames do not count.
example (f : Frame) : verdict .day [.switchTo .night 3, .offer .night f, .offer .night f,
    .switchTo .night 3, .offer .day f, .offer .night f] .night = .warmingUp 1 := by
  rfl

end DayNight.Outlet
