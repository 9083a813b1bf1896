import DayNight.Proofs.Pipeline.Telling

namespace DayNight

namespace Channel

variable {α : Type} {a b c : Channel α}

-- The channel `b` is the channel `a` after some reads.
structure OnlyRead (a b : Channel α) : Prop where
  backend   : b.backend = a.backend
  published : b.stats.published = a.stats.published
  rejected  : b.stats.rejected = a.stats.rejected

namespace OnlyRead

theorem refl (a : Channel α) : OnlyRead a a := ⟨rfl, rfl, rfl⟩

theorem trans (h : OnlyRead a b) (k : OnlyRead b c) : OnlyRead a c where
  backend   := k.backend.trans h.backend
  published := k.published.trans h.published
  rejected  := k.rejected.trans h.rejected

variable [Record α]

theorem ofLatest (a : Channel α) : OnlyRead a a.latest.2 := ⟨rfl, rfl, rfl⟩

theorem latest (h : OnlyRead a b) : b.latest.1 = a.latest.1 := by
  rw [Channel.latest, Channel.latest, h.backend]

end OnlyRead

end Channel

namespace Outlet

variable {o : Outlet}

-- Whatever is done at a closed gate, nothing gets through and it stays closed.
theorem step_of_closed (h : o.gate.isOpen = false) (action : Action) :
    (o.step action).2.gate.isOpen = false ∧ (o.step action).2.frames = o.frames ∧
    (o.step action).2.detections = o.detections := by
  cases action
  case offer | publish | publishFrame => simp [step, Gate.publish, Gate.publishIfOpen, h]
  case switchTo                       => exact ⟨h, rfl, rfl⟩
  case close                          => exact ⟨rfl, rfl, rfl⟩

-- The outlet `p` is the outlet `o` some time after its gate was closed.
structure Rests (o p : Outlet) : Prop where
  closed     : p.gate.isOpen = false
  frames     : o.frames.OnlyRead p.frames
  detections : o.detections.OnlyRead p.detections

theorem Rests.visited {p : Outlet} (h : o.Rests p) (visit : Option Visit) :
    o.Rests (p.visited visit) := by
  match visit with
  | none => exact h
  | some (.act action) =>
    have ⟨hc, hf, hd⟩ := step_of_closed h.closed action
    exact ⟨hc, hf.symm ▸ h.frames, hd.symm ▸ h.detections⟩
  | some .readFrame     => exact ⟨h.closed, h.frames.trans (.ofLatest _), h.detections⟩
  | some .readDetection => exact ⟨h.closed, h.frames, h.detections.trans (.ofLatest _)⟩

end Outlet

namespace Pipeline.State

variable {s t u : State} {e : Event}

theorem rests_of_reachable (h : s.gate.isOpen = false) (ht : Reachable s t) :
    s.outlet.Rests t.outlet := by
  induction ht
  case start => exact ⟨h, .refl _, .refl _⟩
  case step hs ih =>
    rw [(step_tells hs).outlet]
    exact ih.visited _

theorem rests_of_close (hv : s.visit? e = some (.act .close)) (hs : s.step e = some u)
    (ht : Reachable u t) : u.outlet.Rests t.outlet := by
  have hc : u.outlet.gate.isOpen = false := by
    rw [(step_tells hs).outlet, hv]
    rfl
  exact rests_of_reachable hc ht

-- If a thread cannot be started, nothing is published from then on.
theorem failed_start_is_final {thread : Thread} {reason : String}
    (he : e.action = .spawnFails thread reason) (hs : s.step e = some u) (ht : Reachable u t) :
    u.outlet.Rests t.outlet :=
  rests_of_close (by rw [visit?, he]) hs ht

-- The day camera's thread is at work already when the detector cannot be started.
example :
    let event (action : Action) : Event := ⟨⟨.start, ⟨0⟩⟩, action⟩
    ((State.new .blind {} (.inProcess none) (.inProcess none)).run
      [event .start, event (.thread (.capture .day) .go),
        event (.spawnFails .detector "no memory")]).map (fun s => (s.gate.isOpen, s.owner)) =
      some (false, .joining [.capture .day, .capture .night] [] ⟨2000000000⟩) := by
  rfl

-- From the moment at which the owner closes the gate, both channels keep what they hold, although
-- threads may go on and even move the gate.
theorem closing_is_final (he : e.action = .beginStop) (hs : s.step e = some u)
    (ht : Reachable u t) :
    (t.frames.backend = u.frames.backend ∧ t.frames.latest.1 = u.frames.latest.1 ∧
      t.frames.stats.published = u.frames.stats.published) ∧
    (t.detections.backend = u.detections.backend ∧
      t.detections.latest.1 = u.detections.latest.1 ∧
      t.detections.stats.published = u.detections.stats.published) := by
  obtain ⟨_, hf, hd⟩ := rests_of_close (by rw [visit?, he]) hs ht
  exact ⟨⟨hf.backend, hf.latest, hf.published⟩, hd.backend, hd.latest, hd.published⟩

-- The gate closes while the day camera's thread waits for its second image and the control thread
-- opens the night camera. Both go on.
def unfinished : List Event × Event × List Event :=
  let event (action : Action) : Event := ⟨⟨.start, ⟨0⟩⟩, action⟩
  let control (signal : Signal) := event (.thread .control signal)
  let day (signal : Signal) := event (.thread (.capture .day) signal)
  let image : Image := ⟨[1, 2, 3, 4], 2, 2, .gray8, none⟩
  ([event .start] ++ List.replicate 4 (day .go) ++ [day .opened, day (.read (.ok image)), day .go,
      day .timeUp] ++ List.replicate 3 (day .go)
      ++ [event (.command ⟨.manual, some .night, none⟩), event .request]
      ++ List.replicate 5 (control .go) ++ [control .openLate] ++ List.replicate 7 (control .go),
    event .beginStop,
    [day (.read (.ok image)), day .go, control .opened] ++ List.replicate 4 (control .go))

theorem closing_with_threads_at_work : ∃ s u t,
    Reachable (.new .blind {} (.inProcess none) (.inProcess none)) s ∧
    s.step unfinished.2.1 = some u ∧ Reachable u t ∧ t.gate.active ≠ u.gate.active ∧
    t.frames.stats.published = 1 ∧ t.frames.latest.1 = u.frames.latest.1 := by
  have hr : ((State.new .blind {} (.inProcess none) (.inProcess none)).run unfinished.1).bind
      (fun s => (s.step unfinished.2.1).bind fun u => (u.run unfinished.2.2).map fun t =>
        (u.gate.active, t.gate.active, u.frames.stats.published)) = some (.day, .night, 1) := by
    rfl
  obtain ⟨s, hs, hr⟩ := Option.bind_eq_some_iff.mp hr
  obtain ⟨u, hu, hr⟩ := Option.bind_eq_some_iff.mp hr
  obtain ⟨t, ht, hr⟩ := Option.map_eq_some_iff.mp hr
  simp only [Prod.mk.injEq] at hr
  obtain ⟨hd, hn, hp⟩ := hr
  have ⟨⟨_, hl, hk⟩, _⟩ := closing_is_final rfl hu (.run .start ht)
  exact ⟨s, u, t, .run .start hs, hu, .run .start ht, by rw [hd, hn]; decide, hk.trans hp, hl⟩

end Pipeline.State

end DayNight
