import DayNight.Proofs.Pipeline.Degraded
import DayNight.Proofs.Pipeline.Sequences
import Mathlib.Data.List.DropRight

namespace DayNight.Pipeline

-- What a capture thread goes through, as far as failures are concerned.
inductive Mark
  -- There is no image, since the device cannot be opened or the read fails.
  | failed
  | read
  -- The image gets through the gate and into the channel.
  | shown
  -- The camera is found not to be the active one.
  | idle
  -- The controller is told that the camera keeps failing.
  | reported
  deriving DecidableEq

namespace Mark

variable {marks before after : List Mark} {mark : Mark} {limit : Nat}

-- What makes the thread count anew.
def endsRun : Mark → Bool
  | shown | idle => true
  | _ => false

-- What goes on between two failures that follow each other.
def keepsRow : Mark → Bool
  | failed | reported => true
  | _ => false

def recent (marks : List Mark) : List Mark := marks.rtakeWhile (!·.endsRun)

-- The failures that the thread counts.
def failures (marks : List Mark) : Nat := (recent marks).count failed

-- The last failures that follow each other without an image between them.
def failuresInRow (marks : List Mark) : Nat := (marks.rtakeWhile keepsRow).count failed

theorem recent_concat (h : mark.endsRun = false) :
    recent (marks ++ [mark]) = recent marks ++ [mark] :=
  List.rtakeWhile_concat_pos _ _ _ (by simp [h])

theorem recent_concat_of_endsRun (h : mark.endsRun = true) : recent (marks ++ [mark]) = [] :=
  List.rtakeWhile_concat_neg _ _ _ (by simp [h])

@[simp] theorem failures_concat_failed : failures (marks ++ [failed]) = failures marks + 1 := by
  rw [failures, recent_concat rfl, List.count_append]
  rfl

@[simp] theorem failures_concat_read : failures (marks ++ [read]) = failures marks := by
  rw [failures, recent_concat rfl, List.count_append]
  rfl

@[simp] theorem failures_concat_reported : failures (marks ++ [reported]) = failures marks := by
  rw [failures, recent_concat rfl, List.count_append]
  rfl

@[simp] theorem failures_concat_shown : failures (marks ++ [shown]) = 0 := by
  rw [failures, recent_concat_of_endsRun rfl, List.count_nil]

@[simp] theorem failures_concat_idle : failures (marks ++ [idle]) = 0 := by
  rw [failures, recent_concat_of_endsRun rfl, List.count_nil]

@[simp] theorem failuresInRow_concat_failed :
    failuresInRow (marks ++ [failed]) = failuresInRow marks + 1 := by
  rw [failuresInRow, List.rtakeWhile_concat_pos _ _ _ rfl, List.count_append]
  rfl

@[simp] theorem failuresInRow_concat_reported :
    failuresInRow (marks ++ [reported]) = failuresInRow marks := by
  rw [failuresInRow, List.rtakeWhile_concat_pos _ _ _ rfl, List.count_append]
  rfl

theorem failuresInRow_concat (h : mark.keepsRow = false) : failuresInRow (marks ++ [mark]) = 0 := by
  rw [failuresInRow, List.rtakeWhile_concat_neg _ _ _ (by simp [h]), List.count_nil]

-- The failure that came just now is the one that is too many.
def Due (limit : Nat) (marks : List Mark) : Prop :=
  marks.getLast? = some failed ∧ failures marks = limit

theorem due_concat_failed : Due limit (marks ++ [failed]) ↔ failures marks + 1 = limit := by
  simp [Due]

theorem not_due_concat (h : mark ≠ failed) : ¬ Due limit (marks ++ [mark]) := by
  simp [Due, h]

-- Reports come just when they are due.
def Timely (limit : Nat) (marks : List Mark) : Prop :=
  ∀ before mark after, marks = before ++ mark :: after → (mark = reported ↔ Due limit before)

theorem Timely.concat (h : Timely limit marks) (hm : mark = reported ↔ Due limit marks) :
    Timely limit (marks ++ [mark]) := by
  intro before next after he
  obtain rfl | ⟨after, last, rfl⟩ := after.eq_nil_or_concat'
  · obtain ⟨rfl, ⟨⟩⟩ := List.append_inj' he rfl
    exact hm
  · have he : marks ++ [mark] = (before ++ next :: after) ++ [last] := by simpa using he
    obtain ⟨rfl, -⟩ := List.append_inj' he rfl
    exact h before next after rfl

theorem Timely.nil : Timely limit [] := by
  intro before mark after he
  simp at he

theorem failuresInRow_le (marks : List Mark) : failuresInRow marks ≤ failures marks := by
  induction marks using List.reverseRecOn
  case nil => exact Nat.le_refl _
  case append_singleton marks mark ih =>
    cases mark
    case failed   => simpa using ih
    case reported => simpa using ih
    all_goals exact (failuresInRow_concat rfl).trans_le (Nat.zero_le _)

-- A new mark brings no new image with marks before it, unless it is one.
theorem no_split_concat (h : mark ≠ read) :
    (∀ before after, marks ++ [mark] = before ++ read :: after → failed ∉ before) ↔
    ∀ before after, marks = before ++ read :: after → failed ∉ before := by
  refine ⟨fun hs before after he => hs before (after ++ [mark]) (by simp [he]),
    fun hs before after he => ?_⟩
  obtain rfl | ⟨after, last, rfl⟩ := after.eq_nil_or_concat'
  · obtain ⟨-, he⟩ := List.append_inj' he rfl
    exact absurd (List.singleton_inj.mp he) h
  · have he : marks ++ [mark] = (before ++ read :: after) ++ [last] := by simpa using he
    exact hs before after (List.append_inj' he rfl).1

-- The failures that are counted follow each other, unless an image has come after one of them.
theorem failuresInRow_eq_iff : failuresInRow marks = failures marks ↔
    ∀ before after, recent marks = before ++ read :: after → failed ∉ before := by
  induction marks using List.reverseRecOn
  case nil => simp [failuresInRow, failures, recent]
  case append_singleton marks mark ih =>
    cases mark
    case failed =>
      rw [recent_concat rfl, no_split_concat (by decide : failed ≠ read), ← ih]
      simp
    case reported =>
      rw [recent_concat rfl, no_split_concat (by decide : reported ≠ read), ← ih]
      simp
    case read =>
      rw [failuresInRow_concat rfl, failures_concat_read, recent_concat rfl]
      constructor
      · intro h before after he hf
        have hr : failed ∈ recent marks ++ [read] := he ▸ List.mem_append_left _ hf
        have hr : failed ∈ recent marks := by simpa using hr
        exact absurd (List.count_pos_iff.mpr hr) (by rw [← failures, ← h]; decide)
      · exact fun h => (List.count_eq_zero.mpr (h (recent marks) [] rfl)).symm
    case shown | idle => rw [failuresInRow_concat rfl, recent_concat_of_endsRun rfl]; simp

-- Once there were enough failures, a report is due or has been made.
theorem Timely.reported (h : Timely limit (before ++ after)) (h0 : 0 < limit)
    (hl : limit ≤ failures before) : Due limit before ∨ reported ∈ recent before := by
  induction before using List.reverseRecOn generalizing after
  case nil => exact absurd hl (Nat.not_le.mpr h0)
  case append_singleton before mark ih =>
    rw [List.append_assoc] at h
    -- It was not due before, or else this is the report.
    have hm := h before mark after rfl
    have keep (he : mark.endsRun = false) (hr : reported ∈ recent before) :
        reported ∈ recent (before ++ [mark]) :=
      recent_concat he ▸ List.mem_append_left _ hr
    cases mark
    case failed =>
      rw [failures_concat_failed] at hl
      obtain hl | hl := Nat.lt_or_eq_of_le hl
      · have hr := (ih h (Nat.le_of_lt_succ hl)).resolve_left fun hd => nomatch hm.mpr hd
        exact .inr (keep rfl hr)
      · exact .inl (due_concat_failed.mpr hl.symm)
    case read =>
      rw [failures_concat_read] at hl
      exact .inr (keep rfl ((ih h hl).resolve_left fun hd => nomatch hm.mpr hd))
    case reported => exact .inr (by rw [recent_concat rfl]; simp)
    case shown => exact absurd hl (by rw [failures_concat_shown]; exact Nat.not_le.mpr h0)
    case idle  => exact absurd hl (by rw [failures_concat_idle]; exact Nat.not_le.mpr h0)

end Mark

-- What a step from here brings about, by the answer that comes; `shows` says whether an image gets
-- through the gate, and `active` whether the gate is open for the camera.
def CapturePhase.mark? (shows active : Bool) : CapturePhase → Signal → Option Mark
  | opening _, .refused _ => some .failed
  | opening _, .openLate => some .failed
  | reading, .read (.error _) => some .failed
  | reading, .read (.ok _) => some .read
  | publish _ _, _ => if shows then some .shown else none
  | checkGate, _ => if active then none else some .idle
  | report _ _, _ => some .reported
  | _, _ => none

-- Whether the thread has a failure to count or to report.
def CapturePhase.atFailure : CapturePhase → Bool
  | failed _ _ | report _ _ => true
  | _ => false

namespace CaptureThread

variable {t own : CaptureThread}

-- The thread goes on with what it has counted, and there is no failure to deal with.
structure Proceeds (t own : CaptureThread) : Prop where
  failures  : own.failures = t.failures
  degraded  : own.degraded = t.degraded
  atFailure : own.phase.atFailure = false

namespace Proceeds

theorem goTo {phase : CapturePhase} (h : phase.atFailure = false := by rfl) :
    t.Proceeds (t.goTo phase) :=
  ⟨rfl, rfl, h⟩

theorem goOn (next : AfterRelease) : t.Proceeds (t.goOn next) := by
  cases next <;> exact .goTo

theorem release (next : AfterRelease) : t.Proceeds (t.release next) := by
  unfold CaptureThread.release
  split
  case h_1 => exact ⟨rfl, rfl, rfl⟩
  case h_2 => exact .goOn next

theorem endFailure (bare : Bool) : t.Proceeds (t.endFailure bare) := by
  cases bare <;> exact .goTo

theorem afterReport (limit : UInt32) (bare : Bool) : t.Proceeds (t.afterReport limit bare) := by
  unfold CaptureThread.afterReport
  split
  case isTrue  => exact .release .sleep
  case isFalse => exact .endFailure bare

theorem afterPublish (luma : Option Float) : t.Proceeds (t.afterPublish luma) := by
  cases luma <;> exact .goTo

end Proceeds

-- What the thread has counted after these marks. A failure that it has not dealt with yet is not
-- counted. The number starts over at the end of a machine word, but the flag stays.
inductive Counted (limit : UInt32) (own : CaptureThread) : List Mark → Prop
  | failed {marks error bare} : own.phase = .failed error bare →
    own.failures = .ofNat (Mark.failures marks) →
    own.degraded = decide (limit.toNat ≤ Mark.failures marks) → ¬ Mark.Due limit.toNat marks →
    Counted limit own (marks ++ [.failed])
  | report {marks text bare} : own.phase = .report text bare →
    own.failures = .ofNat (Mark.failures marks) → own.degraded = true →
    Mark.Due limit.toNat marks → Counted limit own marks
  | other {marks} : own.phase.atFailure = false → own.failures = .ofNat (Mark.failures marks) →
    own.degraded = decide (limit.toNat ≤ Mark.failures marks) → ¬ Mark.Due limit.toNat marks →
    Counted limit own marks

end CaptureThread

namespace CaptureThread.Counted

open Mark (Due)

variable {t own : CaptureThread} {limit : UInt32} {past : List Mark} {mark : Mark}

-- As long as there is no failure to deal with, no report is due.
theorem quiet (h : t.Counted limit past) (hp : t.phase.atFailure = false) :
    t.failures = .ofNat (Mark.failures past) ∧
    t.degraded = decide (limit.toNat ≤ Mark.failures past) ∧ ¬ Due limit.toNat past := by
  cases h
  case failed hq _ _ _ => rw [hq] at hp; cases hp
  case report hq _ _ _ => rw [hq] at hp; cases hp
  case other hf hd hn  => exact ⟨hf, hd, hn⟩

theorem proceeds (h : t.Counted limit past) (hp : t.phase.atFailure = false) (hg : t.Proceeds own) :
    own.Counted limit past := by
  obtain ⟨hf, hd, hn⟩ := h.quiet hp
  exact .other hg.atFailure (hg.failures.trans hf) (hg.degraded.trans hd) hn

-- A mark that changes no count.
theorem passes (h : t.Counted limit past) (hp : t.phase.atFailure = false) (hg : t.Proceeds own)
    (hm : mark ≠ .failed) (hk : Mark.failures (past ++ [mark]) = Mark.failures past) :
    own.Counted limit (past ++ [mark]) := by
  obtain ⟨hf, hd, _⟩ := h.quiet hp
  refine .other hg.atFailure ?_ ?_ (Mark.not_due_concat hm)
  · rw [hg.failures, hf, hk]
  · rw [hg.degraded, hd, hk]

-- A mark after which the thread counts anew.
theorem restarts (h0 : 0 < limit.toNat) (hf : own.failures = 0) (hd : own.degraded = false)
    (hp : own.phase.atFailure = false) (hm : mark ≠ .failed)
    (hk : Mark.failures (past ++ [mark]) = 0) : own.Counted limit (past ++ [mark]) := by
  refine .other hp ?_ ?_ (Mark.not_due_concat hm)
  · rw [hf, hk]; rfl
  · rw [hd, hk, decide_eq_false (Nat.not_le.mpr h0)]

theorem fails (h : t.Counted limit past) (hp : t.phase.atFailure = false) {error : SourceError}
    {bare : Bool} : (t.goTo (.failed error bare)).Counted limit (past ++ [.failed]) := by
  obtain ⟨hf, hd, hn⟩ := h.quiet hp
  exact .failed rfl hf hd hn

-- The failure is counted: it is one too many, or the thread goes on.
theorem counts {error : SourceError} {bare : Bool} (h : t.Counted limit past)
    (hp : t.phase = .failed error bare) :
    (t.degraded = false → ¬ t.failures + 1 < limit → ∀ text,
      Counted limit { t with
        failures := t.failures + 1, degraded := true, phase := .report text bare } past) ∧
    (t.failures + 1 < limit ∨ t.degraded = true →
      ∀ own, Proceeds { t with failures := t.failures + 1 } own → own.Counted limit past) := by
  cases h
  case report hq _ _ _ => cases hp.symm.trans hq
  case other hq _ _ _  => rw [hp] at hq; cases hq
  case failed marks error' bare' hq hf hd hn =>
    have hl := limit.toNat_lt
    have hs : t.failures + 1 = .ofNat (Mark.failures (marks ++ [.failed])) := by simp [hf]
    have hlt : t.failures + 1 < limit ↔ (Mark.failures marks + 1) % 2 ^ 32 < limit.toNat := by
      rw [hs, UInt32.lt_iff_toNat_lt]
      simp
    constructor
    · intro hd' hge text
      have hk : ¬ limit.toNat ≤ Mark.failures marks := by simpa [hd'] using hd.symm
      refine .report rfl hs rfl (Mark.due_concat_failed.mpr ?_)
      rw [hlt] at hge
      omega
    · intro hor own hg
      have hk : Mark.failures marks + 1 < limit.toNat ∨ limit.toNat ≤ Mark.failures marks := by
        by_cases hk : limit.toNat ≤ Mark.failures marks
        · exact .inr hk
        · have hd' : t.degraded = false := by simpa [hk] using hd
          have hlt := hlt.mp (hor.resolve_right (by simp [hd']))
          omega
      refine .other hg.atFailure (hg.failures.trans hs) ?_ ?_
      · rw [hg.degraded, hd, Mark.failures_concat_failed]
        exact decide_eq_decide.mpr (by omega)
      · rw [Mark.due_concat_failed]
        omega

-- The report is made.
theorem reports {text : String} {bare : Bool} (h : t.Counted limit past)
    (hp : t.phase = .report text bare) (hg : t.Proceeds own) :
    Due limit.toNat past ∧ own.Counted limit (past ++ [.reported]) := by
  cases h
  case failed hq _ _ _ => cases hp.symm.trans hq
  case other hq _ _ _  => rw [hp] at hq; cases hq
  case report hq hd hf hn =>
    refine ⟨hn, .other hg.atFailure ?_ ?_ (Mark.not_due_concat (by decide))⟩
    · rw [hg.failures, hf, Mark.failures_concat_reported]
    · rw [hg.degraded, hd, Mark.failures_concat_reported, hn.2]
      simp

end CaptureThread.Counted

namespace State

variable {s t u : State} {c : Camera} {e : Event} {signal : Signal} {past : List Mark}
         {jpeg : JpegDecoder} {config : Config} {frames : FrameChannel}
         {detections : DetectionChannel}

-- What a step of the camera's thread brings about.
def mark? (s : State) (c : Camera) (e : Event) : Option Mark :=
  match e.action with
  | .thread (.capture d) signal =>
    if d = c then
      (s.captures.get c).phase.mark? (s.shown? e).isSome (s.gate.active = c) signal
    else none
  | _ => none

theorem mark_of_action (ha : e.action = .thread (.capture c) signal) : s.mark? c e =
    (s.captures.get c).phase.mark? (s.shown? e).isSome (s.gate.active = c) signal := by
  rw [mark?, ha]
  exact if_pos rfl

theorem mark_of_others (ha : ∀ signal, e.action ≠ .thread (.capture c) signal) :
    s.mark? c e = none := by
  unfold mark?
  split
  case h_1 d signal hd => exact if_neg (by rintro rfl; exact ha signal hd)
  case h_2             => rfl

-- The marks of a run.
def marks (c : Camera) : State → List Event → List Mark
  | _, [] => []
  | s, e :: events =>
    match s.step e with
    | some t => (s.mark? c e).toList ++ t.marks c events
    | none => []

variable {limit : UInt32}

-- What the thread has counted fits the marks, and its reports have come in time.
structure Keeps (s : State) (c : Camera) (limit : UInt32) (past : List Mark) : Prop where
  counted : (s.captures.get c).Counted limit past
  timely  : Mark.Timely limit.toNat past

namespace Keeps

theorem unmarked (h : s.Keeps c limit past) (hm : s.mark? c e = Option.none)
    (ht : (t.captures.get c).Counted limit past) :
    t.Keeps c limit (past ++ (s.mark? c e).toList) := by
  rw [hm, Option.toList_none, List.append_nil]
  exact ⟨ht, h.timely⟩

-- Nothing of note has happened.
theorem none (h : s.Keeps c limit past) (hm : s.mark? c e = Option.none)
    (hq : (s.captures.get c).phase.atFailure = false)
    (hg : (s.captures.get c).Proceeds (t.captures.get c)) :
    t.Keeps c limit (past ++ (s.mark? c e).toList) :=
  h.unmarked hm (h.counted.proceeds hq hg)

-- No report is due unless there is a failure to deal with.
theorem some {mark : Mark} (h : s.Keeps c limit past) (hm : s.mark? c e = Option.some mark)
    (hq : (s.captures.get c).phase.atFailure = false) (hr : mark ≠ .reported)
    (ht : (t.captures.get c).Counted limit (past ++ [mark])) :
    t.Keeps c limit (past ++ (s.mark? c e).toList) := by
  rw [hm, Option.toList_some]
  obtain ⟨_, _, hn⟩ := h.counted.quiet hq
  exact ⟨ht, h.timely.concat ⟨fun hm => absurd hm hr, fun hd => absurd hd hn⟩⟩

theorem fails {error : SourceError} {bare : Bool} (h : s.Keeps c limit past)
    (hm : s.mark? c e = Option.some .failed) (hq : (s.captures.get c).phase.atFailure = false)
    (ht : t.captures.get c = (s.captures.get c).goTo (.failed error bare)) :
    t.Keeps c limit (past ++ (s.mark? c e).toList) :=
  h.some hm hq (by decide) (ht ▸ h.counted.fails hq)

end Keeps

-- The device is opened, or an image is read.
theorem keeps_of_answer (he : s.captureStep c e.clock signal = some t)
    (ha : e.action = .thread (.capture c) signal)
    (hp : (∃ handle, (s.captures.get c).phase = .opening handle) ∨
      (s.captures.get c).phase = .reading) (h : s.Keeps c limit past) :
    t.Keeps c limit (past ++ (s.mark? c e).toList) := by
  have hget := captures_setCapture (c := c)
  have hm : s.mark? c e = _ := mark_of_action ha
  obtain ⟨handle, hp⟩ | hp := hp
  case inl =>
    have hq : (s.captures.get c).phase.atFailure = false := by rw [hp]; rfl
    rw [hp] at hm
    cases signal <;> simp only [captureStep, hp, reduceCtorEq] at he
    case opened   => cases he; exact h.none hm hq (by rw [hget]; exact ⟨rfl, rfl, rfl⟩)
    case refused  => cases he; exact h.fails hm hq (hget ..)
    case openLate => cases he; exact h.fails hm hq (hget ..)
  case inr =>
    have hq : (s.captures.get c).phase.atFailure = false := by rw [hp]; rfl
    rw [hp] at hm
    cases signal
    case read answer =>
      cases answer <;> simp only [captureStep, hp] at he
      case error => cases he; exact h.fails hm hq (hget ..)
      case ok =>
        split at he
        case h_2 => cases he
        case h_1 =>
          cases he
          refine h.some hm hq (by decide) ?_
          rw [hget]
          exact h.counted.passes hq ⟨rfl, rfl, rfl⟩ (by decide) (by simp)
    all_goals simp [captureStep, hp] at he

theorem keeps_of_captureStep (he : s.captureStep c e.clock signal = some t)
    (ha : e.action = .thread (.capture c) signal) (h0 : 0 < limit.toNat)
    (hl : s.config.capture.maxFailedReads = limit) (h : s.Keeps c limit past) :
    t.Keeps c limit (past ++ (s.mark? c e).toList) := by
  have hget := captures_setCapture (c := c)
  have hm : s.mark? c e = _ := mark_of_action ha
  by_cases ho : (∃ handle, (s.captures.get c).phase = .opening handle) ∨
      (s.captures.get c).phase = .reading
  case pos => exact keeps_of_answer he ha ho h
  case neg =>
    -- A frame that is shown.
    have shows {image : Image} {luma : Option Float} {number : UInt64}
        (hq : (s.captures.get c).phase = .publish image luma)
        (hn : (s.gate.publish c ⟨image, c, (s.captures.get c).sequence, e.clock.wall⟩ s.frames).1 =
          .ok (.published number)) (hf : (t.captures.get c).failures = 0)
        (hd : (t.captures.get c).degraded = false)
        (hp : (t.captures.get c).phase.atFailure = false) :
        t.Keeps c limit (past ++ (s.mark? c e).toList) := by
      rw [hq, shown_of_offer ha hq hn] at hm
      exact h.some hm (by rw [hq]; rfl) (by decide) (.restarts h0 hf hd hp (by decide) (by simp))
    cases captureStep_cases he
    case opens hq                           => exact absurd (.inl ⟨_, hq⟩) ho
    case fails hq | late hq                 => exact absurd (.inl ⟨_, hq⟩) ho
    case reads hq _ | readFails hq          => exact absurd (.inr hq) ho
    case ends hq _ | wakesUp hq _ _ =>
      exact h.none (by rw [hm, hq]; rfl) (by rw [hq]; rfl) (by rw [hget]; exact .release _)
    case unclaims hq =>
      exact h.none (by rw [hm, hq]; rfl) (by rw [hq]; rfl) (by rw [hget]; exact .goOn _)
    case clears hq _ =>
      exact h.none (by rw [hm, hq]; rfl) (by rw [hq]; rfl) (by rw [hget]; exact .afterPublish _)
    case publishes hq hn hd =>
      have hg := CaptureThread.Proceeds.afterPublish (t := { s.captures.get c with failures := 0 })
      exact shows hq hn (by rw [hget]; exact (hg _).failures)
        (by rw [hget]; exact (hg _).degraded.trans hd) (by rw [hget]; exact (hg _).atFailure)
    case recovers hq hn _ =>
      exact shows hq hn (by rw [hget]; rfl) (by rw [hget]; rfl) (by rw [hget]; rfl)
    case withholds image luma hq hn =>
      have hs : s.shown? e = Option.none := by
        refine Option.eq_none_iff_forall_ne_some.mpr fun ⟨d, frame⟩ hs => ?_
        obtain ⟨⟨_, hd⟩, ⟨_, _, hq', rfl⟩, number, ho⟩ := shown_cases hs
        cases ha.symm.trans hd
        cases hq.symm.trans hq'
        exact hn number ho
      exact h.none (by rw [hm, hq, hs]; rfl) (by rw [hq]; rfl) (by rw [hget]; exact .goTo)
    case yields hq hg =>
      rw [hq, decide_eq_false hg] at hm
      have hr := CaptureThread.Proceeds.release
        (t := { s.captures.get c with failures := 0, degraded := false }) .sleep
      refine h.some hm (by rw [hq]; rfl) (by decide) ?_
      rw [hget]
      exact .restarts h0 hr.failures hr.degraded hr.atFailure (by decide) (by simp)
    case goesOn hq hg _ | needs hq hg _ =>
      exact h.none (by rw [hm, hq, decide_eq_true hg]; rfl) (by rw [hq]; rfl)
        (by rw [hget]; exact .goTo)
    case counts hq hlt =>
      refine h.unmarked (by rw [hm, hq]; rfl) ?_
      rw [hget]
      exact (h.counted.counts hq).2 (.inl (hl ▸ hlt)) _ (.endFailure _)
    case recounts hq hge hd =>
      refine h.unmarked (by rw [hm, hq]; rfl) ?_
      rw [hget]
      exact (h.counted.counts hq).2 (.inr hd) _ (.afterReport _ _)
    case gives hq hge hd =>
      refine h.unmarked (by rw [hm, hq]; rfl) ?_
      rw [hget]
      exact (h.counted.counts hq).1 hd (hl ▸ hge) _
    case reports hq _ =>
      obtain ⟨hd, hc⟩ := h.counted.reports hq (.afterReport s.config.capture.maxFailedReads _)
      rw [hm, hq]
      exact ⟨by rw [hget]; exact hc, h.timely.concat ⟨fun _ => hd, fun _ => rfl⟩⟩
    all_goals
      have hq := ‹(s.captures.get c).phase = _›
      exact h.none (by rw [hm, hq]; rfl) (by rw [hq]; rfl) (by rw [hget]; exact ⟨rfl, rfl, rfl⟩)

theorem keeps_of_step (hi : s.Sound) (he : s.step e = some t) (h0 : 0 < limit.toNat)
    (hl : s.config.capture.maxFailedReads = limit) (h : s.Keeps c limit past) :
    t.Keeps c limit (past ++ (s.mark? c e).toList) := by
  by_cases ha : ∃ signal, e.action = .thread (.capture c) signal
  case pos =>
    obtain ⟨signal, ha⟩ := ha
    refine keeps_of_captureStep ?_ ha h0 hl h
    rw [step, ha] at he
    exact he
  case neg =>
    have ha := not_exists.mp ha
    have hm : s.mark? c e = none := mark_of_others ha
    obtain hx | ⟨ho, hx⟩ | ⟨hn, hx⟩ := (step_tells he).captures ha
    · exact h.unmarked hm (hx ▸ h.counted)
    · exact h.none hm (by rw [hi.idle ho c]; rfl) (hx ▸ .goTo)
    · exact h.none hm (by rw [hn]; rfl) (by rw [hn, hx]; exact .goTo)

theorem run_keeps {events : List Event} (hs : Reachable (.new jpeg config frames detections) s)
    (ht : s.run events = some t) (h0 : 0 < config.capture.maxFailedReads.toNat)
    (h : s.Keeps c config.capture.maxFailedReads past) :
    t.Keeps c config.capture.maxFailedReads (past ++ s.marks c events) := by
  induction events generalizing s past
  case nil => cases ht; simpa [marks] using h
  case cons e events ih =>
    have ⟨u, he, ht⟩ := run_cons ht
    have hu := keeps_of_step (tracked_of_reachable hs).1 he h0
      (congrArg (·.capture.maxFailedReads) (config_of_reachable hs)) h
    rw [marks, he]
    simpa using ih (hs.step he) ht hu

theorem Keeps.new (h0 : 0 < config.capture.maxFailedReads.toNat) :
    (State.new jpeg config frames detections).Keeps c config.capture.maxFailedReads [] := by
  have hc : (State.new jpeg config frames detections).captures.get c = .new := by cases c <;> rfl
  refine ⟨?_, .nil⟩
  rw [hc]
  refine .other rfl rfl ?_ nofun
  exact (decide_eq_false (Nat.not_le.mpr h0)).symm

-- A thread reports that its camera keeps failing after the failure with which there are so many as
-- configured since a frame was last shown, and at no other time. These failures follow each other
-- unless an image was read after one of them that was not shown. When so many follow each other, a
-- report is due, or it has been made since a frame was last shown.
theorem reports_after_failures {events : List Event} (h0 : 0 < config.capture.maxFailedReads)
    (hs : (State.new jpeg config frames detections).run events = some s) (c : Camera) :
    let limit := config.capture.maxFailedReads.toNat
    let marks := (State.new jpeg config frames detections).marks c events
    (∀ before mark after, marks = before ++ mark :: after →
      (mark = .reported ↔ Mark.Due limit before)) ∧
    (Mark.Due limit marks → (s.captures.get c).phase.atFailure) ∧
    (∀ before after, marks = before ++ .reported :: after →
      (Mark.failuresInRow before = limit ↔
        ∀ older newer, Mark.recent before = older ++ .read :: newer → .failed ∉ older)) ∧
    (∀ before after, marks = before ++ after → limit ≤ Mark.failuresInRow before →
      Mark.Due limit before ∨ .reported ∈ Mark.recent before) := by
  intro limit marks
  have h0 : 0 < limit := UInt32.lt_iff_toNat_lt.mp h0
  have h : s.Keeps c config.capture.maxFailedReads marks := run_keeps .start hs h0 (.new h0)
  refine ⟨h.timely, fun hd => ?_, fun before after he => ?_, fun before after he hl => ?_⟩
  · by_contra hq
    exact (h.counted.quiet (by simpa using hq)).2.2 hd
  · have hd : Mark.Due limit before := (h.timely before _ after he).mp rfl
    rw [← Mark.failuresInRow_eq_iff, hd.2]
  · have ht : Mark.Timely limit (before ++ after) := he ▸ h.timely
    exact ht.reported h0 (Nat.le_trans hl (Mark.failuresInRow_le before))

-- Two failures are enough here, and frames of up to `bytes` bytes get into the channel.
def wary (bytes : UInt64) : Config :=
  { capture := { maxFailedReads := 2 }, channels := { frameCapacity := bytes } }

-- The day camera's thread takes turns with these answers to its reads; then it fails, and reports.
def turns (answers : List (Except SourceError Image)) : List Event :=
  let event (action : Action) : Event := ⟨⟨.start, ⟨0⟩⟩, action⟩
  let day (signal : Signal) := event (.thread (.capture .day) signal)
  let turn (answer : Except SourceError Image) :=
    [day (.read answer), day .go, day .timeUp] ++ List.replicate 3 (day .go)
  [event .start] ++ List.replicate 4 (day .go) ++ [day .opened] ++ answers.flatMap turn
    ++ [day (.read (.error (.reading "last"))), day .go, day .go]

-- It is done with an image, and then fails twice.
def twoFailures : List Event :=
  turns [.ok ⟨[1, 2, 3, 4], 2, 2, .gray8, none⟩, .error (.reading "first")]

theorem reports_after_two_failures : ∃ made s marks,
    create .blind (wary 4) .empty = (.ok made, .empty) ∧ made.state.run twoFailures = some s ∧
    made.state.marks .day twoFailures = marks ++ [.reported] ∧
    marks = [.read, .shown, .failed, .failed] ∧ Mark.Due 2 marks ∧
    Mark.failuresInRow marks = 2 := by
  let made : Created := ⟨.new .blind (wary 4) (.inProcess (some 44))
    (.inProcess (some 264)), none, none⟩
  have hc : create .blind (wary 4) .empty = (.ok made, .empty) := by rfl
  have hr : (made.state.run twoFailures).isSome := by decide +kernel
  have hm : made.state.marks .day twoFailures =
      [.read, .shown, .failed, .failed] ++ [.reported] := by decide +kernel
  obtain ⟨s, hs⟩ := Option.isSome_iff_exists.mp hr
  obtain ⟨hd, _, hrow, _⟩ := reports_after_failures (by decide) hs .day
  refine ⟨made, s, _, hc, hs, hm, rfl, (hd _ _ _ hm).mp rfl, (hrow _ _ hm).mpr ?_⟩
  intro older newer he
  have hread : Mark.read ∈ Mark.recent [.read, .shown, .failed, .failed] := by simp [he]
  exact absurd hread (by decide)

-- Between two failures it reads an image that is too large for the channel.
def failuresApart : List Event :=
  turns [.error (.reading "first"), .ok ⟨[1, 2, 3, 4], 2, 2, .gray8, none⟩]

-- So a report may come although the last read but one was successful.
theorem not_only_reports_after_failures_in_row : ¬ ∀ (jpeg : JpegDecoder) (config : Config)
    (shelf shelf' : Shelf) (made : Created) (events : List Event) (s : State) (c : Camera)
    (before after : List Mark),
    create jpeg config shelf = (.ok made, shelf') → made.state.run events = some s →
    made.state.marks c events = before ++ .reported :: after →
    config.capture.maxFailedReads.toNat ≤ Mark.failuresInRow before := by
  intro h
  let made : Created := ⟨.new .blind (wary 3) (.inProcess (some 43))
    (.inProcess (some 264)), none, none⟩
  have hc : create .blind (wary 3) .empty = (.ok made, .empty) := by rfl
  have hr : (made.state.run failuresApart).isSome := by decide +kernel
  have hm : made.state.marks .day failuresApart =
      [.failed, .read, .failed] ++ .reported :: [] := by decide +kernel
  obtain ⟨s, hs⟩ := Option.isSome_iff_exists.mp hr
  exact absurd (h _ _ _ _ _ _ _ _ _ _ hc hs hm) (by decide)

end State

end DayNight.Pipeline
