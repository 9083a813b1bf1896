import DayNight.Proofs.Controller.Numbers
import Mathlib.Data.List.DropRight
import Mathlib.Data.List.Nodup
import Mathlib.Logic.Function.Iterate

namespace DayNight.Controller

namespace Action

-- The transition on whose outcome an action reports.
def outcome? : Action → Option Transition
  | complete t => some t
  | fail t _ _ => some t
  | _ => none

-- A command that is carried out. Others are refused and change nothing.
def IsOrder : Action → Prop
  | command given _ => given.validate = .ok ()
  | _ => False

end Action

-- The transitions that a run asks for, in their order.
def asked (c : Controller) (actions : List Action) : List Transition :=
  (c.run actions).1.filterMap Answer.wanted?

-- How many reports of a completed switch a run accepts.
def accepted (c : Controller) (actions : List Action) : Nat :=
  (c.run actions).1.count (.accepts true)

-- The transition that an action settles: the one on which it reports, if the report counts.
def settles? (c : Controller) (action : Action) : Option Transition :=
  match action, (c.step action).1 with
  | .complete t, .accepts true => some t
  | .fail t _ _, _ => if c.isPending t then some t else none
  | _, _ => none

def settled (c : Controller) : List Action → List Transition
  | [] => []
  | action :: actions => (c.settles? action).toList ++ (c.step action).2.settled actions

-- Outcomes are reported only of what was asked for before.
def ReportsAsked (c : Controller) (actions : List Action) : Prop :=
  ∀ before action, before ++ [action] <+: actions → ∀ t ∈ action.outcome?, t ∈ c.asked before

section

variable {c d : Controller} {action : Action} {actions : List Action} {t : Transition}

theorem run_concat (c : Controller) (actions : List Action) (action : Action) :
    c.run (actions ++ [action]) =
      ((c.run actions).1 ++ [((c.after actions).step action).1],
        ((c.after actions).step action).2) := by
  induction actions generalizing c
  case nil                     => rfl
  case cons first actions ih => simp [run, ih]

theorem after_concat (c : Controller) (actions : List Action) (action : Action) :
    c.after (actions ++ [action]) = ((c.after actions).step action).2 := by
  rw [after, run_concat]

theorem asked_concat (c : Controller) (actions : List Action) (action : Action) :
    c.asked (actions ++ [action]) =
      c.asked actions ++ ((c.after actions).step action).1.wanted?.toList := by
  rw [asked, run_concat, List.filterMap_append, asked]
  cases hw : ((c.after actions).step action).1.wanted? <;> simp [hw]

theorem accepted_concat (c : Controller) (actions : List Action) (action : Action) :
    c.accepted (actions ++ [action]) = c.accepted actions +
      if ((c.after actions).step action).1 = .accepts true then 1 else 0 := by
  simp [accepted, run_concat, List.count_append, List.count_singleton]

theorem asked_append (c : Controller) (first second : List Action) :
    c.asked (first ++ second) = c.asked first ++ (c.after first).asked second := by
  induction second using List.reverseRecOn
  case nil => simp [asked, run]
  case append_singleton second last ih =>
    rw [← List.append_assoc, asked_concat, ih, asked_concat, after_append, List.append_assoc]

theorem accepted_append (c : Controller) (first second : List Action) :
    c.accepted (first ++ second) = c.accepted first + (c.after first).accepted second := by
  induction second using List.reverseRecOn
  case nil => simp [accepted, run]
  case append_singleton second last ih =>
    rw [← List.append_assoc, accepted_concat, ih, accepted_concat, after_append, Nat.add_assoc]

theorem settled_append (c : Controller) (first second : List Action) :
    c.settled (first ++ second) = c.settled first ++ (c.after first).settled second := by
  induction first generalizing c
  case nil                  => rfl
  case cons action first ih => simp [settled, ih]

theorem settled_concat (c : Controller) (actions : List Action) (action : Action) :
    c.settled (actions ++ [action]) =
      c.settled actions ++ ((c.after actions).settles? action).toList := by
  simp [settled_append, settled]

theorem settles?_eq_filter (c : Controller) (action : Action) :
    c.settles? action = action.outcome?.filter c.isPending := by
  cases action
  case complete t =>
    cases h : c.isPending t
    all_goals simp [settles?, step, complete, Action.outcome?, Option.filter_some, h]
  case fail t _ _ =>
    cases h : c.isPending t
    all_goals simp [settles?, Action.outcome?, Option.filter_some, h]
  all_goals rfl

theorem settles?_eq_some :
    c.settles? action = some t ↔ action.outcome? = some t ∧ c.isPending t := by
  simp [settles?_eq_filter]

-- A report that does not count changes nothing.
theorem step_of_not_pending (ho : action.outcome? = some t) (h : c.isPending t = false) :
    (c.step action).2 = c := by
  cases action <;> cases ho
  case complete => rw [step, complete_of_not_pending h]
  case fail     => rw [step, fail_of_not_pending h]

-- Only reports are accepted.
theorem command_not_accepts (c : Controller) (command : SwitchCommand) (now : Moment) :
    (c.step (.command command now)).1 ≠ .accepts true := by
  intro h
  rw [step] at h
  split at h
  case h_1 => cases h
  case h_2 => cases h

theorem reportsAsked_iff : c.ReportsAsked actions ↔ ∀ i < actions.length,
    ∀ t ∈ actions[i]?.bind Action.outcome?, t ∈ c.asked (actions.take i) := by
  constructor
  case mp =>
    intro h i hi t ht
    rw [List.getElem?_eq_getElem hi, Option.bind_some] at ht
    have hp : actions.take i ++ [actions[i]] <+: actions := by
      rw [List.take_append_getElem]
      exact List.take_prefix ..
    exact h _ _ hp t ht
  case mpr =>
    rintro h before action ⟨rest, rfl⟩ t ht
    simpa using h before.length (by simp) t (by simpa using ht)

instance : Decidable (c.ReportsAsked actions) := decidable_of_iff _ reportsAsked_iff.symm

theorem ReportsAsked.of_prefix {before : List Action} (h : c.ReportsAsked actions)
    (hp : before <+: actions) : c.ReportsAsked before :=
  fun first action hf => h first action (hf.trans hp)

theorem reportsAsked_concat : c.ReportsAsked (actions ++ [action]) ↔
    c.ReportsAsked actions ∧ ∀ t ∈ action.outcome?, t ∈ c.asked actions := by
  constructor
  case mp =>
    intro h
    exact ⟨h.of_prefix (List.prefix_append ..), h actions action (List.prefix_refl _)⟩
  case mpr =>
    intro ⟨h, ho⟩ before action hp
    obtain hp | hp := List.prefix_concat_iff.mp hp
    · obtain ⟨rfl, ⟨⟩⟩ := List.append_inj' hp rfl
      exact ho
    · exact h before action hp

end

variable {first : Camera} {asked settled : List Transition} {completed : Nat} {c d : Controller}
  {t : Transition}

-- What the controller knows of its dealings so far.
structure Accounts (first : Camera) (asked settled : List Transition) (completed : Nat)
    (c : Controller) : Prop where
  numbers     : asked.map (·.id) = List.range' 1 asked.length
  nextId      : c.nextId = asked.length + 1
  inOrder     : settled.Sublist asked
  -- Only the last transition can be pending, and then nobody has settled it.
  pending     : ∀ p, c.pending = some p →
    ∃ earlier, asked = earlier ++ [p] ∧ settled.Sublist earlier ∧
    p.source = c.active ∧ p.target = c.active.other
  switchCount : c.switchCount = completed
  active      : c.active = Camera.other^[completed] first

namespace Accounts

theorem ofNew (config : Config.Switcher) : Accounts config.initialCamera [] [] 0 (new config) where
  numbers     := rfl
  nextId      := rfl
  inOrder     := .slnil
  pending     := nofun
  switchCount := rfl
  active      := rfl

-- The pending transition is known by its number.
theorem pending_eq (h : Accounts first asked settled completed c) (ht : t ∈ asked)
    (hp : c.isPending t) : c.pending = some t := by
  have ⟨p, hc, hi⟩ := isPending_iff.mp hp
  have ⟨earlier, ha, _⟩ := h.pending p hc
  have hn : (asked.map (·.id)).Nodup := h.numbers ▸ List.nodup_range' 1
  have hm : p ∈ asked := by simp [ha]
  rw [hc, List.inj_on_of_nodup_map hn hm ht hi]

theorem issued (h : Accounts first asked settled completed c) (ht : t ∈ asked) : c.Issued t := by
  have hm : t.id ∈ asked.map (·.id) := List.mem_map_of_mem ht
  rw [h.numbers, List.mem_range'_1] at hm
  rw [Issued, h.nextId]
  omega

theorem pending_id (h : Accounts first asked settled completed c) (hp : c.pending = some t) :
    t.id + 1 = c.nextId := by
  have ⟨earlier, ha, _⟩ := h.pending t hp
  have hn := h.numbers
  have hl : asked.length = earlier.length + 1 := by simp [ha]
  rw [hl, List.range'_concat, ha, List.map_append] at hn
  have hi : t.id = 1 + 1 * earlier.length := by simpa using (List.append_inj' hn rfl).2
  rw [h.nextId, hl]
  omega

theorem asks (h : Accounts first asked settled completed c) {wanted : Option Transition}
    (ha : c.Asks (wanted, d)) :
    Accounts first (asked ++ wanted.toList) settled completed d := by
  cases ha
  case quiet hs hd hn hp =>
    rw [Option.toList_none, List.append_nil]
    refine ⟨h.numbers, hn.trans h.nextId, h.inOrder, fun p hc => ?_, hs.trans h.switchCount,
      hd.trans h.active⟩
    obtain hp | hp := hp
    · rw [hd]
      exact h.pending p (hp ▸ hc)
    · cases hp.symm.trans hc
  case begins base reason hs hd hn =>
    have hi : base.nextId = 1 + asked.length := by rw [hn, h.nextId, Nat.add_comm]
    refine ⟨?_, ?_, ?_, ?_, hs.trans h.switchCount, hd.trans h.active⟩
    · simp [h.numbers, List.range'_concat, hi]
    · simp [hi, Nat.add_comm]
    · exact h.inOrder.trans (List.sublist_append_left ..)
    · rintro _ ⟨⟩
      exact ⟨asked, rfl, h.inOrder, rfl, rfl⟩

-- What is settled is the pending transition, so its target is the other camera.
theorem settle (h : Accounts first asked settled completed c) (hc : c.pending = some t) (more : Nat)
    (hn : d.nextId = c.nextId) (hp : d.pending = none)
    (hs : d.switchCount = c.switchCount + more) (ha : d.active = Camera.other^[more] c.active) :
    Accounts first asked (settled ++ [t]) (completed + more) d := by
  have ⟨earlier, hl, hs', _⟩ := h.pending t hc
  refine ⟨h.numbers, hn.trans h.nextId, ?_, fun p hd => absurd (hp.symm.trans hd) nofun, ?_, ?_⟩
  · exact hl ▸ hs'.append (.refl _)
  · rw [hs, h.switchCount]
  · rw [ha, h.active, ← Function.iterate_add_apply, Nat.add_comm]

theorem step (h : Accounts first asked settled completed c) (action : Action)
    (ho : ∀ t ∈ action.outcome?, t ∈ asked) :
    Accounts first (asked ++ (c.step action).1.wanted?.toList)
      (settled ++ (c.settles? action).toList)
      (completed + if (c.step action).1 = .accepts true then 1 else 0) (c.step action).2 := by
  cases action
  case observe sample =>
    have ha : c.Asks ((c.observe sample).1, (c.observe sample).2) := asks_observe sample
    simpa [Controller.step, settles?, Answer.wanted?] using h.asks ha
  case poll now =>
    have ha : c.Asks ((c.poll now).1, (c.poll now).2) := asks_poll rfl rfl (.inl rfl)
    simpa [Controller.step, settles?, Answer.wanted?] using h.asks ha
  case command command now =>
    have ha := c.command_not_accepts command now
    simpa [settles?, ha] using h.asks (c.asks_command command now)
  case complete t =>
    cases hp : c.isPending t
    case false =>
      simpa [Controller.step, complete_of_not_pending hp, settles?, Answer.wanted?] using h
    case true =>
      have hc := h.pending_eq (ho t rfl) hp
      obtain ⟨_, _, _, _, ht⟩ := h.pending t hc
      have hd : Accounts first asked (settled ++ [t]) (completed + 1) (c.complete t).2 := by
        rw [complete_of_pending hp]
        exact h.settle hc 1 rfl rfl rfl ht
      simpa [Controller.step, complete_of_pending hp, settles?, Answer.wanted?] using hd
  case fail t e now =>
    cases hp : c.isPending t
    case false =>
      simpa [Controller.step, fail_of_not_pending hp, settles?, hp, Answer.wanted?] using h
    case true =>
      have hd : Accounts first asked (settled ++ [t]) (completed + 0) (c.fail t e now) := by
        rw [fail_of_pending hp]
        exact h.settle (h.pending_eq (ho t rfl) hp) 0 rfl rfl rfl rfl
      simpa [Controller.step, settles?, hp, Answer.wanted?] using hd
  case setCaptureDegraded camera degraded error =>
    obtain ⟨_, _, hf⟩ := c.setCaptureDegraded_frame camera degraded error
    have hd : Accounts first asked settled completed
        (c.setCaptureDegraded camera degraded error) := by
      rw [hf]
      exact ⟨h.numbers, h.nextId, h.inOrder, h.pending, h.switchCount, h.active⟩
    simpa [Controller.step, settles?, Answer.wanted?] using hd

theorem run {config : Config.Switcher} {actions : List Action}
    (h : (new config).ReportsAsked actions) :
    Accounts config.initialCamera ((new config).asked actions) ((new config).settled actions)
      ((new config).accepted actions) ((new config).after actions) := by
  induction actions using List.reverseRecOn
  case nil => exact ofNew config
  case append_singleton actions action ih =>
    have ⟨hr, ho⟩ := reportsAsked_concat.mp h
    rw [asked_concat, settled_concat, accepted_concat, after_concat]
    exact (ih hr).step action ho

end Accounts

section

variable {action : Action}

theorem later_step (c : Controller) (action : Action) : c.Later (c.step action).2 := by
  cases action
  case observe sample => exact (asks_observe sample).later
  case poll now       =>
    have ha : c.Asks ((c.poll now).1, (c.poll now).2) := asks_poll rfl rfl (.inl rfl)
    exact ha.later
  case command command now => exact (c.asks_command command now).later
  case complete t                  => exact later_complete t
  case fail t e now                => exact later_fail t e now
  case setCaptureDegraded camera d e => exact later_setCaptureDegraded camera d e

theorem not_pending_of_order (ho : action.IsOrder) (hi : c.Issued t) :
    ¬ (c.step action).2.isPending t := by
  cases action <;> simp only [Action.IsOrder] at ho
  case command command now =>
    obtain ⟨wanted, d, happly, -, -, -, -, -, hd⟩ := c.apply_of_ok now ho
    have ha := asks_apply happly
    simp only [step, happly, isPending_iff]
    rintro ⟨p, hp, he⟩
    have hw : wanted = some p := hd.symm.trans hp
    cases ha
    case quiet         => cases hw
    case begins _ _ hn =>
      cases hw
      exact Nat.ne_of_lt hi (he.symm.trans hn)

-- What is not pending any more is never settled.
theorem not_settled (hi : c.Issued t) (hp : ¬ c.isPending t) (actions : List Action) :
    ∀ u ∈ c.settled actions, u.id ≠ t.id := by
  induction actions generalizing c
  case nil => exact nofun
  case cons action actions ih =>
    have hl := c.later_step action
    intro u hu he
    obtain hu | hu := List.mem_append.mp hu
    · have ⟨_, hu⟩ := settles?_eq_some.mp (Option.mem_toList.mp hu)
      exact hp (by rwa [isPending, he] at hu)
    · exact ih (hi.later hl) (hl.not_pending hi hp) u hu he

end

-- The numbers go up one by one. What is pending was asked for last, and leads away from the active
-- camera; a report that does not settle it is lost on the controller.
theorem handshake (config : Config.Switcher) (actions : List Action)
    (h : (new config).ReportsAsked actions) :
    let c := (new config).after actions
    let asked := (new config).asked actions
    let settled := (new config).settled actions
    asked.map (·.id) = List.range' 1 asked.length ∧
    (∀ p, c.pending = some p → p.source = c.active ∧ p.target = c.active.other ∧
      p ∈ asked ∧ ∀ t ∈ asked, t.id ≤ p.id) ∧
    (settled.map (·.id)).Nodup ∧
    (∀ before order later, actions = before ++ order :: later → order.IsOrder →
      ∀ t ∈ (new config).asked before,
        ∀ u ∈ ((new config).after (before ++ [order])).settled later, u.id ≠ t.id) ∧
    (∀ report, ∀ t ∈ asked, report.outcome? = some t →
      (c.settles? report = some t ∧ c.pending = some t ∧ (c.step report).2.pending = none) ∨
      (c.settles? report = none ∧ (c.step report).2 = c)) ∧
    c.switchCount = (new config).accepted actions ∧
    c.active = Camera.other^[c.switchCount] config.initialCamera := by
  intro c asked settled
  have ha : Accounts config.initialCamera asked settled ((new config).accepted actions) c := .run h
  have hn : (asked.map (·.id)).Nodup := ha.numbers ▸ List.nodup_range' 1
  refine ⟨ha.numbers, ?_, ?_, ?_, ?_, ha.switchCount, ha.switchCount ▸ ha.active⟩
  · intro p hp
    have ⟨earlier, he, _, hs, ht⟩ := ha.pending p hp
    refine ⟨hs, ht, by simp [he], fun t ht => Nat.le_of_lt_succ ?_⟩
    rw [Nat.succ_eq_add_one, ha.pending_id hp]
    exact ha.issued ht
  · exact hn.sublist (ha.inOrder.map _)
  · intro before order later hl ho t ht
    have hb : (new config).ReportsAsked before := h.of_prefix (hl ▸ List.prefix_append ..)
    have hi : ((new config).after before).Issued t := (Accounts.run hb).issued ht
    rw [after_concat]
    exact not_settled (hi.later (later_step _ order)) (not_pending_of_order ho hi) later
  · intro report t ht ho
    cases hp : c.isPending t
    case true  =>
      have hs : c.settles? report = some t := settles?_eq_some.mpr ⟨ho, hp⟩
      refine .inl ⟨hs, ha.pending_eq ht hp, ?_⟩
      cases report <;> cases ho
      case complete => rw [step, complete_of_pending hp]
      case fail     => rw [step, fail_of_pending hp]
    case false =>
      refine .inr ⟨?_, step_of_not_pending ho hp⟩
      rw [settles?_eq_filter, ho, Option.filter_some, if_neg (by simp [hp])]

-- The first switch to the night camera is overruled and reported as done all the same.
theorem handshake_after_late_report :
    let ask (now : Moment) : Action := .command ⟨.manual, some .night, none⟩ now
    let done (id : Nat) : Action := .complete ⟨id, .day, .night, "manual"⟩
    let actions := [ask ⟨0⟩, .command ⟨.auto, none, none⟩ ⟨1⟩, done 1, ask ⟨2⟩, done 2, done 2]
    (new {}).ReportsAsked actions ∧ ((new {}).asked actions).map (·.id) = [1, 2] ∧
    (∀ u ∈ ((new {}).after (actions.take 2)).settled (actions.drop 2), u.id ≠ 1) ∧
    ((new {}).after actions).active = .night := by
  intro ask done actions
  have hr : (new {}).ReportsAsked actions := by decide
  have ⟨hn, _, _, ho, _, hs, ha⟩ := handshake {} actions hr
  refine ⟨hr, hn, ?_, ?_⟩
  · exact ho [ask ⟨0⟩] _ _ rfl rfl ⟨1, .day, .night, "manual"⟩ (by decide)
  · rw [ha, hs]
    decide

end DayNight.Controller
