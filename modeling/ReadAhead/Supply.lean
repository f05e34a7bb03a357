import ReadAhead.Duration
import ReadAhead.Feed.Effort

/-! A ring and the feed that fills it, with the time, and without a stream around them. Others may work on
    the ring between the steps of the feed. -/

namespace ReadAhead

/-- A feed at work on a ring. -/
structure Supply (σ : Type) where
  now : Nat
  ring : Ring
  feed : Feed σ

namespace Supply
variable {σ : Type}

/-- A feed that has not done anything yet, from a source at `start`. -/
def fresh (ring : Ring) (source : σ) (start scratch : Nat) : Supply σ :=
  ⟨0, ring, Feed.fresh source start scratch⟩

inductive Event
  | step
  | wait (due : Nat)
  deriving DecidableEq

/-- What happens next up to the time `limit`, if anything does. -/
def event? (limit : Nat) (s : Supply σ) : Option Event :=
  if s.feed.isReady s.now then some .step
  else (s.feed.due?.filter fun due => s.now < due ∧ due ≤ limit).map .wait

def happen (origin : Origin σ) : Event → Supply σ → Supply σ
  | .step, ⟨now, ring, feed⟩ =>
    let after := feed.advance origin now ring
    ⟨now, after.ring, after.feed⟩
  | .wait due, s => { s with now := due }

/-- What is left to do: whether the feed is at work, the work left to it, and whether it waits for a moment
    ahead. -/
def effort (s : Supply σ) : Nat × Nat × Nat :=
  (if s.feed.isStopped then 0 else 1, s.feed.effort s.ring.free,
    if s.feed.due?.any (s.now < ·) then 1 else 0)

theorem effort_happen {origin : Origin σ} {limit : Nat} {s : Supply σ} {e : Event} (h : s.event? limit = some e) :
    Prod.Lex (· < ·) (Prod.Lex (· < ·) (· < ·)) (s.happen origin e).effort s.effort := by
  unfold event? at h
  split at h
  · rename_i hready
    obtain rfl := Option.some.inj h
    have hspent := Feed.spent_advance origin s.now s.ring hready
    have hrun : s.feed.isStopped = false := by
      rcases s with ⟨_, _, _, _, _, phase, _, _, _, _⟩
      cases phase <;> simp_all [Feed.isStopped, Feed.isReady]
    rcases hspent.less with hstop | ⟨hgo, hless, _, _⟩
    · exact .left _ _ (by simp [happen, hrun, hstop])
    · simp only [effort, happen, hrun, hgo]
      exact .right _ (.left _ _ hless)
  · obtain ⟨due, hdue, rfl⟩ := Option.map_eq_some_iff.mp h
    obtain ⟨hdue, hlt⟩ := Option.filter_eq_some_iff.mp hdue
    simp only [decide_eq_true_eq] at hlt
    simp only [effort, happen, hdue]
    exact .right _ (.right _ (by simp [hlt.1]))

/-- Runs the feed until nothing happens up to the time `limit`. -/
def run (origin : Origin σ) (limit : Nat) (s : Supply σ) : Supply σ :=
  match _h : s.event? limit with
  | none => s
  | some e => run origin limit (s.happen origin e)
termination_by s.effort
decreasing_by exact effort_happen _h

/-- Runs whatever can run without time moving. -/
def settle (origin : Origin σ) (s : Supply σ) : Supply σ := s.run origin s.now

/-- Lets time pass up to `time`; what is due then has happened. -/
def passUntil (origin : Origin σ) (time : Nat) (s : Supply σ) : Supply σ :=
  let now := max s.now time
  { s.run origin time with now }

/-- Lets milliseconds pass, up to the longest wait. -/
def pass (origin : Origin σ) (millis : Nat) (s : Supply σ) : Supply σ :=
  s.passUntil origin (s.now + min millis Duration.longestWait)

/-- Works on the ring; the feed is told if that wakes those who wait on the ring. -/
def onRing {α : Type} (work : Ring → Ring.After α) (s : Supply σ) : α × Supply σ :=
  let after := work s.ring
  (after.answer, { s with ring := after.ring, feed := if after.woke then s.feed.wake else s.feed })

def cancel (s : Supply σ) : Supply σ := { s with feed := s.feed.cancel }

/-- Asks the feed to stop, and waits until it has. -/
def stop (origin : Origin σ) (s : Supply σ) : Supply σ := s.cancel.settle origin

end Supply
end ReadAhead
