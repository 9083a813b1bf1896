import DayNight.Proofs.Controller.Numbers
import DayNight.Proofs.Pipeline.Steps

namespace DayNight.Pipeline

namespace CapturePhase

-- The transition that a capture thread is about to hand to the control thread.
def asked? : CapturePhase → Option Transition
  | request transition => some transition
  | _ => none

-- Whether a thread holds a claim apart from that of the device which it keeps open.
def claims : CapturePhase → Bool
  | opening _ => true
  | failed _ bare => bare
  | report _ bare => bare
  | close _ _ => true
  | unclaim _ => true
  | _ => false

def handle? : CapturePhase → Option Handle
  | opening h => some h
  | close h _ => some h
  | _ => none

-- Whether a thread gives up a device that made way for the one that was left for it.
def replaces : CapturePhase → Bool
  | close _ next => next = .checkGate
  | unclaim next => next = .checkGate
  | _ => false

end CapturePhase

namespace CaptureThread

variable {t own : CaptureThread} {h : Handle} {bare : Bool}

def asked? (t : CaptureThread) : Option Transition := t.phase.asked?

-- How many claims the thread holds.
def claims (t : CaptureThread) : Nat := t.lease.isSome.toNat + t.phase.claims.toNat

-- The handles that it uses or opens.
def handles (t : CaptureThread) : List Handle := t.lease.toList ++ t.phase.handle?.toList

-- A thread that holds one claim at most still holds it, and no other handles.
structure Keeps (t own : CaptureThread) : Prop where
  claims   : t.claims ≤ 1 → own.claims = t.claims
  handles  : own.handles ⊆ t.handles
  replaces : own.phase.replaces = true → t.phase.replaces = true

structure Gains (t : CaptureThread) (h : Handle) (own : CaptureThread) : Prop where
  claims   : own.claims = t.claims + 1
  handles  : own.handles ⊆ h :: t.handles
  replaces : own.phase.replaces = true → t.lease.isSome = true

structure Loses (t own : CaptureThread) : Prop where
  claims   : own.claims + 1 = t.claims
  handles  : own.handles ⊆ t.handles
  replaces : own.phase.replaces = false

namespace Keeps

theorem refl : t.Keeps t := ⟨fun _ => rfl, fun _ h => h, id⟩

-- What the thread counts besides does not matter.
theorem congr {other : CaptureThread} (h : other.Keeps own) (hl : other.lease = t.lease := by rfl)
    (hp : other.phase = t.phase := by rfl) : t.Keeps own where
  claims   := by simpa [CaptureThread.claims, hl, hp] using h.claims
  handles  := by simpa [CaptureThread.handles, hl, hp] using h.handles
  replaces := hp ▸ h.replaces

theorem goTo (hc : own.phase.claims = t.phase.claims) (hl : own.lease = t.lease := by rfl)
    (hh : own.phase.handle? = none := by rfl)
    (hr : own.phase.replaces = true → t.phase.replaces = true := by nofun) : t.Keeps own where
  claims _ := by simp [CaptureThread.claims, hl, hc]
  handles  := by simp [CaptureThread.handles, hl, hh]
  replaces := hr

-- With the device the thread gives up the claim that comes with it, which is its only one.
theorem close {next : AfterRelease} (hl : t.lease = some h) (hn : next ≠ .checkGate) :
    t.Keeps (t.release next) := by
  rw [show t.release next = { t with lease := none, phase := .close h next } by
    simp [CaptureThread.release, hl]]
  refine ⟨fun hone => ?_, ?_, ?_⟩
  · cases hc : t.phase.claims
    case false =>
      have hk : (CapturePhase.close h next).claims = true := rfl
      simp [CaptureThread.claims, hl, hc, hk]
    case true => simp [CaptureThread.claims, hl, hc] at hone
  · simp [CaptureThread.handles, hl, CapturePhase.handle?]
  · exact fun hr => absurd (of_decide_eq_true hr) hn

theorem release {next : AfterRelease} (hc : t.phase.claims = false) (hn : next ≠ .checkGate) :
    t.Keeps (t.release next) := by
  cases hl : t.lease
  case some => exact .close hl hn
  case none =>
    rw [show t.release next = t.goOn next by simp [CaptureThread.release, hl]]
    cases next
    case checkGate => exact absurd rfl hn
    all_goals exact .goTo hc.symm

theorem endFailure (hc : t.phase.claims = bare) : t.Keeps (t.endFailure bare) := by
  cases bare
  all_goals exact .goTo hc.symm

theorem afterReport (hc : t.phase.claims = bare) (limit : UInt32) :
    t.Keeps (t.afterReport limit bare) := by
  unfold CaptureThread.afterReport
  split
  case isTrue h =>
    have ⟨_, hl⟩ := Option.isSome_iff_exists.mp h.2
    exact .close hl nofun
  case isFalse => exact .endFailure hc

theorem afterPublish (luma : Option Float) (hc : t.phase.claims = false) :
    t.Keeps (t.afterPublish luma) := by
  cases luma
  all_goals exact .goTo hc.symm

theorem opened (hp : t.phase = .opening h) :
    t.Keeps { t with lease := some h, phase := .reading } where
  claims   := by
    have hk : t.phase.claims = true := hp ▸ rfl
    have hn : CapturePhase.reading.claims = false := rfl
    intro hone
    cases hl : t.lease
    case none   => simp [CaptureThread.claims, hl, hk, hn]
    case some _ => simp [CaptureThread.claims, hl, hk] at hone
  handles  := by simp [CaptureThread.handles, hp, CapturePhase.handle?]
  replaces := nofun

end Keeps

namespace Gains

theorem takeOver (hl : t.lease = none) (hp : t.phase = .takeOver) :
    t.Gains h { t with lease := some h, phase := .checkGate } where
  claims   := by simp [CaptureThread.claims, hl, hp, CapturePhase.claims]
  handles  := by simp [CaptureThread.handles, CapturePhase.handle?]
  replaces := nofun

theorem replace {old : Handle} (hl : t.lease = some old) (hp : t.phase = .takeOver) :
    t.Gains h { t with lease := some h, phase := .close old .checkGate } where
  claims   := by simp [CaptureThread.claims, hl, hp, CapturePhase.claims]
  handles  := by simp [CaptureThread.handles, hl, CapturePhase.handle?]
  replaces := fun _ => hl ▸ rfl

theorem opening (hp : t.phase = .claim) : t.Gains h (t.goTo (.opening h)) where
  claims   := by simp [CaptureThread.claims, CaptureThread.goTo, hp, CapturePhase.claims]
  handles  := by simp [CaptureThread.handles, CaptureThread.goTo, CapturePhase.handle?]
  replaces := nofun

end Gains

theorem Loses.goOn {next : AfterRelease} (hp : t.phase = .unclaim next) :
    t.Loses (t.goOn next) := by
  cases next
  all_goals
    exact {
      claims   := by simp [CaptureThread.claims, CaptureThread.goOn, CaptureThread.goTo, hp,
        CapturePhase.claims]
      handles  := by simp [CaptureThread.handles, CaptureThread.goOn, CaptureThread.goTo,
        CapturePhase.handle?]
      replaces := rfl }

@[simp] theorem asked_goTo (phase : CapturePhase) : (t.goTo phase).asked? = phase.asked? := rfl

@[simp] theorem asked_goOn (next : AfterRelease) : (t.goOn next).asked? = none := by
  cases next <;> rfl

@[simp] theorem asked_release (next : AfterRelease) : (t.release next).asked? = none := by
  cases h : t.lease
  case none   => simp [release, h]
  case some _ => simp only [release, h]; rfl

@[simp] theorem asked_endFailure (bare : Bool) : (t.endFailure bare).asked? = none := by
  cases bare <;> rfl

@[simp] theorem asked_afterReport (limit : UInt32) (bare : Bool) :
    (t.afterReport limit bare).asked? = none := by
  unfold afterReport
  split
  case isTrue  => exact asked_release .sleep
  case isFalse => exact asked_endFailure bare

@[simp] theorem asked_afterPublish (luma : Option Float) : (t.afterPublish luma).asked? = none := by
  cases luma <;> rfl

end CaptureThread

namespace State

variable {s t : State} {c : Camera} {clock : Clock} {signal : Signal}

-- What a capture thread has to do with the others.
inductive CaptureEffect (s : State) (c : Camera) : State → Prop
  | alone {own} : (s.captures.get c).Keeps own → own.asked? = none →
    CaptureEffect s c (s.setCapture c own)
  | takes {own handed} : s.handoff.get c = some handed → (s.captures.get c).Gains handed own →
    own.asked? = none →
    CaptureEffect s c ({ s with handoff := s.handoff.set c none }.setCapture c own)
  | claims {own claims} : (s.captures.get c).Gains (s.devices.begin c).1 own →
    own.phase.replaces = false → own.asked? = none → s.claims.claim? c = some claims →
    CaptureEffect s c ({ s with
      claims := claims, devices := (s.devices.begin c).2 }.setCapture c own)
  | devices {own devices} : (s.captures.get c).Keeps own → own.asked? = none →
    devices.nextId = s.devices.nextId →
    CaptureEffect s c ({ s with devices := devices }.setCapture c own)
  | unclaims {own} : (s.captures.get c).Loses own → own.asked? = none →
    CaptureEffect s c ({ s with claims := s.claims.release c }.setCapture c own)
  | offers {own gate frames} : (s.captures.get c).Keeps own → own.asked? = none →
    gate.active = s.gate.active →
    CaptureEffect s c ({ s with gate := gate, frames := frames }.setCapture c own)
  | reports {own degraded error} : (s.captures.get c).Keeps own → own.asked? = none →
    s.lock = none →
    CaptureEffect s c ({ s with
      controller := s.controller.setCaptureDegraded c degraded error }.setCapture c own)
  | samples {own wanted controller} : (s.captures.get c).Keeps own → own.asked? = wanted →
    s.lock = none → s.controller.Asks (wanted, controller) →
    CaptureEffect s c ({ s with controller := controller }.setCapture c own)
  | asks {own transition} : (s.captures.get c).Keeps own → own.asked? = none →
    (s.captures.get c).asked? = some transition →
    CaptureEffect s c ({ s with requests := s.requests ++ [transition] }.setCapture c own)

theorem CaptureStep.effect (h : s.CaptureStep c clock signal (s.captures.get c) t) :
    s.CaptureEffect c t := by
  cases h
  case begins hp _ | wakes hp _ _ | misses hp _ | goesOn hp _ _ | needs hp _ _ | passes hp _
      | readFails hp =>
    exact .alone (.goTo (hp ▸ rfl)) rfl
  case reads hp _ => exact .alone (.goTo (by rw [hp]; rfl)) rfl
  case ends hp _ | wakesUp hp _ _ => exact .alone (.release (hp ▸ rfl) nofun) (by simp)
  case yields hp _ =>
    exact .alone (.congr (.release
      (t := { s.captures.get c with failures := 0, degraded := false }) (hp ▸ rfl) nofun)) (by simp)
  case takes hp hh hl    => exact .takes hh (.takeOver hl hp) rfl
  case replaces hp hh hl => exact .takes hh (.replace hl hp) rfl
  case claims hp hc      => exact .claims (.opening hp) rfl rfl hc
  case opens hp          => exact .devices (.opened hp) rfl rfl
  case fails hp | late hp => exact .devices (.goTo (hp ▸ rfl)) rfl rfl
  case closes hp =>
    exact .devices (.goTo (hp ▸ rfl) rfl rfl fun h => by rwa [hp]) rfl rfl
  case unclaims hp => exact .unclaims (.goOn hp) (by simp)
  case publishes hp _ _ =>
    exact .offers (.congr (.afterPublish (t := { s.captures.get c with failures := 0 }) _
      (hp ▸ rfl))) (by simp) Gate.publish_gate.2
  case recovers hp _ _ | withholds hp _ =>
    exact .offers (.goTo (by rw [hp]; rfl)) rfl Gate.publish_gate.2
  case clears hp hl => exact .reports (.afterPublish _ (hp ▸ rfl)) (by simp) hl
  case samples value hp hl hw | wants value _ hp hl hw =>
    have ha : s.controller.Asks ((s.controller.observe ⟨c, value, clock.moment⟩).1,
      (s.controller.observe ⟨c, value, clock.moment⟩).2) := Controller.asks_observe _
    rw [hw] at ha
    exact .samples (.goTo (hp ▸ rfl)) rfl hl ha
  case requests hp => exact .asks (.goTo (hp ▸ rfl)) rfl (by rw [CaptureThread.asked?, hp]; rfl)
  case counts hp _ =>
    exact .alone (.congr (.endFailure (t := { s.captures.get c with
      failures := (s.captures.get c).failures + 1 }) (hp ▸ rfl))) (by simp)
  case recounts hp _ _ =>
    exact .alone (.congr (.afterReport (t := { s.captures.get c with
      failures := (s.captures.get c).failures + 1 }) (hp ▸ rfl) _)) (by simp)
  case gives hp _ _  => exact .alone (.goTo (by rw [hp]; rfl)) rfl
  case reports hp hl => exact .reports (.afterReport (hp ▸ rfl) _) (by simp) hl

end State

end DayNight.Pipeline
