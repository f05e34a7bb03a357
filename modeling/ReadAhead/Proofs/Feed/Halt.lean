import ReadAhead.Feed.Effort
import ReadAhead.Proofs.Feed.Step

/-! How a feed stops. It stops since it is cancelled, since its source has no more bytes or fails, or since the
    ring is closed (`Reason`), and for no other reason: what it puts into the ring always finds room. Whatever
    the reason, it then marks the ring finished, closes the source, and keeps the failure of the source unless
    that says that someone stopped the work (`Stopped`). -/

namespace ReadAhead
namespace Feed
variable {σ : Type} {origin : Origin σ} {now limit : Nat} {ring : Ring} {f : Feed σ}

inductive Reason
  | cancelled
  /-- The source answered without bytes. -/
  | drained
  | failed (cause : Failure)
  /-- There were bytes to put into a closed ring. -/
  | shut

/-- What a feed keeps of the reason for which it stopped. -/
def Reason.failure : Reason → Option Failure
  | .failed cause => if cause.isShutdown then none else some cause
  | _ => none

theorem Reason.failure_eq_some {reason : Reason} {e : Failure} :
    reason.failure = some e ↔ reason = .failed e ∧ e.isShutdown = false := by
  cases reason with
  | failed cause =>
    simp only [failure]
    split
    · rename_i hs
      refine ⟨fun h => (nomatch h), ?_⟩
      rintro ⟨he, hgo⟩
      obtain rfl := Reason.failed.inj he
      rw [hs] at hgo
      cases hgo
    · rename_i hs
      constructor
      · intro h
        obtain rfl := Option.some.inj h
        exact ⟨rfl, by simpa using hs⟩
      · rintro ⟨he, -⟩
        rw [Reason.failed.inj he]
  | cancelled => exact ⟨fun h => (nomatch h), fun h => (nomatch h.1)⟩
  | drained => exact ⟨fun h => (nomatch h), fun h => (nomatch h.1)⟩
  | shut => exact ⟨fun h => (nomatch h), fun h => (nomatch h.1)⟩

/-- A feed that takes a step on the ring, stops for this reason. -/
inductive StopsFor (origin : Origin σ) (f : Feed σ) (ring : Ring) : Reason → Prop
  | cancelled (hc : f.cancelled = true) : StopsFor origin f ring .cancelled
  | drained {bytes : ByteArray} {next : σ} (hgo : f.cancelled = false)
    (hgets : f.Gets origin (min f.scratch ring.capacity) (.ok bytes) next) (hz : bytes.size = 0) :
    StopsFor origin f ring .drained
  | failed {cause : Failure} {next : σ} (hgo : f.cancelled = false)
    (hgets : f.Gets origin (min f.scratch ring.capacity) (.error cause) next) : StopsFor origin f ring (.failed cause)
  | shut {bytes : ByteArray} {next : σ} (hgo : f.cancelled = false)
    (hgets : f.Gets origin (min f.scratch ring.capacity) (.ok bytes) next) (hpos : 0 < bytes.size)
    (hclosed : ring.isClosed = true) : StopsFor origin f ring .shut

theorem Gets.unique {first second : Except Failure ByteArray} {next next' : σ} (h : f.Gets origin limit first next)
    (h' : f.Gets origin limit second next') : first = second := by
  cases h with
  | asked hp =>
    cases h' with
    | asked => rfl
    | waited hp' => cases hp.symm.trans hp'
    | left hp' => cases hp.symm.trans hp'
  | waited hp =>
    cases h' with
    | asked hp' => cases hp.symm.trans hp'
    | waited hp' => exact (Phase.awaiting.inj (hp.symm.trans hp')).2
    | left hp' => cases hp.symm.trans hp'
  | left hp =>
    cases h' with
    | asked hp' => cases hp.symm.trans hp'
    | waited hp' => cases hp.symm.trans hp'
    | left hp' => rw [(Phase.blocked.inj (hp.symm.trans hp')).1]

/-- A feed has one reason to stop. -/
theorem StopsFor.unique {first second : Reason} (h : f.StopsFor origin ring first) (h' : f.StopsFor origin ring second) :
    first = second := by
  cases h with
  | cancelled hc =>
    cases h' with
    | cancelled => rfl
    | drained hgo => exact absurd hc (by simp [hgo])
    | failed hgo => exact absurd hc (by simp [hgo])
    | shut hgo => exact absurd hc (by simp [hgo])
  | drained hgo hgets hz =>
    cases h' with
    | cancelled hc => exact absurd hc (by simp [hgo])
    | drained => rfl
    | failed _ hgets' => cases hgets.unique hgets'
    | shut _ hgets' hpos =>
      obtain rfl := Except.ok.inj (hgets.unique hgets')
      omega
  | failed hgo hgets =>
    cases h' with
    | cancelled hc => exact absurd hc (by simp [hgo])
    | drained _ hgets' => cases hgets.unique hgets'
    | failed _ hgets' => rw [Except.error.inj (hgets.unique hgets')]
    | shut _ hgets' => cases hgets.unique hgets'
  | shut hgo hgets hpos =>
    cases h' with
    | cancelled hc => exact absurd hc (by simp [hgo])
    | drained _ hgets' hz =>
      obtain rfl := Except.ok.inj (hgets.unique hgets')
      omega
    | failed _ hgets' => cases hgets.unique hgets'
    | shut => rfl

/-- The step `a` stops the feed for this reason. -/
structure Stopped (f : Feed σ) (ring : Ring) (reason : Reason) (a : After σ) : Prop where
  stopped : a.feed.isStopped = true
  closes : a.feed.closes = f.closes + 1
  copied : a.feed.copied = f.copied
  failure : a.feed.failure = reason.failure
  ring : a.ring = ring.finish.ring

theorem stopped_halt {reason : Reason} {cause : Option Failure} (f : Feed σ) (ring : Ring) (next : σ)
    (h : cause.filter (!·.isShutdown) = reason.failure) :
    Stopped f ring reason ({ f with source := next }.halt ring false cause) := ⟨rfl, rfl, rfl, h, rfl⟩

/-- The step `a` stops nothing. -/
structure Goes (f : Feed σ) (a : After σ) : Prop where
  running : a.feed.isStopped = false
  closes : a.feed.closes = f.closes
  failure : a.feed.failure = f.failure

theorem stops_take {answer : Except Failure ByteArray} {next : σ} (hring : ring.Sound) (hgo : f.cancelled = false)
    (hgets : f.Gets origin (min f.scratch ring.capacity) answer next) :
    Goes f ({ f with source := next }.take ring answer) ∨
      ∃ reason, f.StopsFor origin ring reason ∧ Stopped f ring reason ({ f with source := next }.take ring answer) := by
  rcases take_cases hring { f with source := next } answer with
    ⟨cause, hends, he⟩ | ⟨rest, left, -, -, -, he⟩ | ⟨rest, n, -, -, -, -, he⟩
  · right
    rw [he]
    cases hends with
    | failed cause =>
      refine ⟨.failed cause, .failed hgo hgets, stopped_halt f ring next ?_⟩
      cases hs : cause.isShutdown <;> simp [Reason.failure, hs]
    | spent hz => exact ⟨.drained, .drained hgo hgets hz, stopped_halt f ring next rfl⟩
    | @shut bytes hclosed =>
      -- An answer without bytes ends the data, be the ring closed or not.
      by_cases hz : bytes.size = 0
      · exact ⟨.drained, .drained hgo hgets hz, stopped_halt f ring next rfl⟩
      · exact ⟨.shut, .shut hgo hgets (Nat.pos_of_ne_zero hz) hclosed, stopped_halt f ring next rfl⟩
  · rw [he]
    exact Or.inl ⟨rfl, rfl, rfl⟩
  · rw [he]
    exact Or.inl ⟨isStopped_eq_false (isStopped_afterPut rest n), rfl, rfl⟩

/-- A step of a feed stops nothing, or stops the feed for a reason that it has. -/
theorem stops_advance (hring : ring.Sound) (origin : Origin σ) (hr : f.isReady now = true) :
    Goes f (f.advance origin now ring) ∨
      ∃ reason, f.StopsFor origin ring reason ∧ Stopped f ring reason (f.advance origin now ring) := by
  rcases advance_cases origin ring hr with ⟨hc, he⟩ | ⟨-, -, -, he⟩ | ⟨hgo, answer, next, hgets, he⟩
  · rw [he]
    exact Or.inr ⟨.cancelled, .cancelled hc, stopped_halt f ring f.source rfl⟩
  · rw [he]
    exact Or.inl ⟨rfl, rfl, rfl⟩
  · rw [he]
    exact stops_take hring hgo hgets

end Feed
end ReadAhead
