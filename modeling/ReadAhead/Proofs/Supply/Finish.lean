import ReadAhead.Proofs.Feed.Halt
import ReadAhead.Proofs.Supply.Step

/-! A feed finishes once. Whatever others do to its ring between its steps, it runs with its source open until
    the one step in which it stops, for a reason of its own; in that step it marks the ring finished, unless
    that is closed, and closes the source; and from then on it does nothing (`finishes_once`). -/

namespace ReadAhead
namespace Supply
variable {σ : Type} {origin : Origin σ} {may : Ring.Op → Prop} {source : σ} {ring : Ring} {start scratch : Nat}
  {s s₀ t u : Supply σ}

/-- The feed is at work, has not closed its source, and has kept no failure. -/
structure Running (s : Supply σ) : Prop where
  running : s.feed.isStopped = false
  closes : s.feed.closes = 0
  failure : s.feed.failure = none

/-- The feed stopped in its step from `u`, after which `t` was reached. -/
structure Finished (origin : Origin σ) (may : Ring.Op → Prop) (u t : Supply σ) : Prop where
  running : u.feed.isStopped = false
  ready : u.feed.isReady u.now = true
  reason : ∃ reason, u.feed.StopsFor origin u.ring reason
  /-- In that step it marked the ring finished where it had come to, unless the ring was closed. -/
  marked : (u.ring.isClosed = true ∧ (u.happen origin .step).ring = u.ring) ∨
    u.ring.isClosed = false ∧ (u.happen origin .step).ring = { u.ring with stop := some u.ring.writePosition }
  after : Reaches origin may (u.happen origin .step) t
  stopped : t.feed.isStopped = true
  closes : t.feed.closes = 1
  copied : t.feed.copied = u.feed.copied
  failure : ∀ e, t.feed.failure = some e ↔ u.feed.StopsFor origin u.ring (.failed e) ∧ e.isShutdown = false
  /-- What was done to the ring since, was done by others. -/
  others : ∃ ops, (∀ op ∈ ops, may op) ∧ t.ring = (Ring.run ops (u.happen origin .step).ring).2

theorem marked_of_finish {after : Ring} (h : after = ring.finish.ring) :
    (ring.isClosed = true ∧ after = ring) ∨ ring.isClosed = false ∧ after = { ring with stop := some ring.writePosition } := by
  cases hopen : ring.isClosed with
  | true =>
    rw [Ring.finish_of_closed hopen] at h
    exact Or.inl ⟨rfl, h⟩
  | false =>
    rw [Ring.finish_of_open hopen] at h
    exact Or.inr ⟨rfl, h⟩

theorem Running.move (h : Running s) (hring : s.ring.Sound) (hready : s.feed.isReady s.now = true) :
    Running (s.happen origin .step) ∨ Finished origin may s (s.happen origin .step) := by
  rcases Feed.stops_advance hring origin hready with hgoes | ⟨reason, hreason, hstopped⟩
  · exact Or.inl ⟨hgoes.running, hgoes.closes.trans h.closes, hgoes.failure.trans h.failure⟩
  · right
    refine ⟨h.running, hready, ⟨reason, hreason⟩, marked_of_finish hstopped.ring, .refl, hstopped.stopped, ?_, hstopped.copied,
      fun e => ?_, [], fun _ hop => (nomatch hop), rfl⟩
    · exact hstopped.closes.trans (congrArg (· + 1) h.closes)
    · have hfailure : (s.happen origin .step).feed.failure = reason.failure := hstopped.failure
      rw [hfailure, Feed.Reason.failure_eq_some]
      constructor
      · rintro ⟨rfl, hgo⟩
        exact ⟨hreason, hgo⟩
      · rintro ⟨hfailed, hgo⟩
        exact ⟨hreason.unique hfailed, hgo⟩

theorem Running.step (h : Running s) (hring : s.ring.Sound) (hstep : Step origin may s t) :
    Running t ∨ Finished origin may s t := by
  cases hstep with
  | move hready => exact h.move hring hready
  | wait => exact Or.inl ⟨h.running, h.closes, h.failure⟩
  | cancel => exact Or.inl ⟨h.running, h.closes, h.failure⟩
  | work =>
    left
    unfold onRing
    simp only
    split
    · obtain ⟨phase, he⟩ := Feed.wake_eq s.feed
      refine ⟨by simpa using h.running, ?_, ?_⟩
      · simpa [he] using h.closes
      · simpa [he] using h.failure
    · exact ⟨h.running, h.closes, h.failure⟩

/-- A feed that has stopped stays as it is but for its cancellation, and others go on with the ring. -/
theorem Finished.next (h : Finished origin may u s) (hstep : Step origin may s t)
    (hfeed : t.feed = { s.feed with cancelled := t.feed.cancelled })
    (hring : ∃ ops, (∀ op ∈ ops, may op) ∧ t.ring = (Ring.run ops s.ring).2) : Finished origin may u t := by
  obtain ⟨ops, hops, hbefore⟩ := h.others
  obtain ⟨more, hmore, hafter⟩ := hring
  refine ⟨h.running, h.ready, h.reason, h.marked, h.after.tail hstep, ?_, ?_, ?_, ?_, ops ++ more, fun op hop => ?_, ?_⟩
  · rw [hfeed]
    exact h.stopped
  · rw [hfeed]
    exact h.closes
  · rw [hfeed]
    exact h.copied
  · rw [hfeed]
    exact h.failure
  · exact (List.mem_append.mp hop).elim (hops op) (hmore op)
  · rw [hafter, hbefore, Ring.run_append]

theorem Finished.step (h : Finished origin may u s) (hstep : Step origin may s t) : Finished origin may u t := by
  have hnothing : ∃ ops, (∀ op ∈ ops, may op) ∧ s.ring = (Ring.run ops s.ring).2 := ⟨[], fun _ hop => (nomatch hop), rfl⟩
  cases hstep with
  | move hready =>
    have hstopped := h.stopped
    rw [Feed.isStopped_of_isReady hready] at hstopped
    cases hstopped
  | wait hle => exact h.next (.wait hle) rfl hnothing
  | cancel => exact h.next .cancel rfl hnothing
  | @work op hop =>
    have hfeed : (s.onRing fun r => r.work op).2.feed = s.feed := by
      unfold onRing
      simp only
      split
      · exact Feed.wake_of_isStopped h.stopped
      · rfl
    refine h.next (.work hop) (by rw [hfeed]) ⟨[op], fun x hx => ?_, (Ring.run_singleton op s.ring).symm⟩
    rw [List.mem_singleton.mp hx]
    exact hop

theorem running_or_finished (hring : ring.Sound) (hreach : Reaches origin may (fresh ring source start scratch) t) :
    Running t ∨ ∃ u, Reaches origin may (fresh ring source start scratch) u ∧ Finished origin may u t := by
  induction hreach with
  | refl => exact Or.inl ⟨rfl, rfl, rfl⟩
  | @tail v w hv hstep ih =>
    rcases ih with hrun | ⟨u, hu, hfinished⟩
    · exact (hrun.step (keeps_of_reaches hv hring).sound hstep).imp_right fun h => ⟨v, hv, h⟩
    · exact Or.inr ⟨u, hu, hfinished.step hstep⟩

/-- Let others do to the ring what they like, let time pass and let the feed be told to stop, at any moment
    between its steps. Either it is still at work, with its source open and no failure kept; or it stopped in
    one step, on its cancellation, the end or a failure of its source, or a closed ring. Then that step marked
    the ring finished where it had come to, unless the ring was closed; the source has been closed once; the
    count of bytes is what it was; a failure was kept just if the source failed, and not to say that someone
    stopped the work; what happened to the ring since was done by others, and the feed takes no step any more.
    Once it is told to stop, it does. -/
theorem finishes_once (hring : ring.Sound) (hreach : Reaches origin may (fresh ring source start scratch) t) :
    (Running t ∨ ∃ u, Reaches origin may (fresh ring source start scratch) u ∧ Finished origin may u t ∧
        ∀ now, t.feed.isReady now = false) ∧
      (t.stop origin).feed.isStopped = true ∧ Reaches origin may t (t.stop origin) := by
  have hsound := (keeps_of_reaches hreach hring).sound
  refine ⟨?_, isStopped_stop origin hsound, reaches_stop origin may t⟩
  rcases running_or_finished hring hreach with hrun | ⟨u, hu, hfinished⟩
  · exact Or.inl hrun
  · have hphase := Feed.isStopped_iff.mp hfinished.stopped
    exact Or.inr ⟨u, hu, hfinished, fun now => Feed.isReady_of_phase_eq_stopped hphase⟩

/-- Sources that fail when they are asked. -/
def failing : Origin Unit where
  connect := fun _ _ _ => .ok ()
  read := fun _ _ => ⟨0, .error (.network "connection reset"), ()⟩
  read_le := fun h => (nomatch h)

/-- Asked once; then others empty the ring, and the feed is told to stop. -/
def failed : Supply Unit :=
  let first := (fresh (Ring.onStorage (Bytes.ofFn 1 fun _ => 0) 0) () 0 1).happen failing .step
  (first.onRing fun r => r.work (.reset 5)).2.cancel

theorem failing_feed_keeps_failure : ∃ u, Finished failing (fun _ => True) u failed ∧
    u.feed.StopsFor failing u.ring (.failed (.network "connection reset")) := by
  have hreach : Reaches failing (fun _ => True) (fresh (Ring.onStorage (Bytes.ofFn 1 fun _ => 0) 0) () 0 1) failed :=
    .tail (.tail (.single (.move rfl)) (.work trivial)) .cancel
  obtain ⟨hrun | ⟨u, -, hfinished, -⟩, -⟩ := finishes_once (Ring.sound_onStorage _ _) hreach
  · exact absurd hrun.running (by decide)
  · exact ⟨u, hfinished, ((hfinished.failure _).mp rfl).1⟩

end Supply
end ReadAhead
