import ReadAhead.Feed
import ReadAhead.Proofs.Ring.Sound

/-! What a step of a feed can do, said once. A feed that can take a step is cancelled and stops, or has just
    asked and waits for the answer, or has an answer at hand (`Gets`): bytes left over count as one. From
    an answer it stops, or finds the ring full, or puts bytes there. -/

namespace ReadAhead
namespace Feed
variable {σ : Type} {origin : Origin σ} {now limit : Nat} {ring : Ring} {f : Feed σ}

/-- The feed has an answer at hand, and its source then is `next`. -/
inductive Gets (origin : Origin σ) (limit : Nat) (f : Feed σ) : Except Failure ByteArray → σ → Prop
  | asked (hp : f.phase = .asking) (hd : (origin.read f.source limit).delay = 0) :
    Gets origin limit f (origin.read f.source limit).answer (origin.read f.source limit).next
  | waited {due : Nat} {answer : Except Failure ByteArray} (hp : f.phase = .awaiting due answer) :
    Gets origin limit f answer f.source
  | left {rest : ByteArray} {left : 0 < rest.size} {woken : Bool} (hp : f.phase = .blocked rest left woken) :
    Gets origin limit f (.ok rest) f.source

theorem isReady_of_phase_eq_stopped (h : f.phase = .stopped) : f.isReady now = false := by simp [isReady, h]

/-- A feed that has a step to take stops since it is cancelled, waits for an answer, or has one. -/
theorem advance_cases (origin : Origin σ) (ring : Ring) (hr : f.isReady now = true) :
    (f.cancelled = true ∧ f.advance origin now ring = f.halt ring false (some .cancelled)) ∨
    (f.cancelled = false ∧ f.phase = .asking ∧ 0 < (origin.read f.source (min f.scratch ring.capacity)).delay ∧
      f.advance origin now ring = ⟨ring, false, { f with
        source := (origin.read f.source (min f.scratch ring.capacity)).next
        phase := .awaiting (now + (origin.read f.source (min f.scratch ring.capacity)).delay)
          (origin.read f.source (min f.scratch ring.capacity)).answer }⟩) ∨
    (f.cancelled = false ∧ ∃ answer next, f.Gets origin (min f.scratch ring.capacity) answer next ∧
      f.advance origin now ring = { f with source := next }.take ring answer) := by
  rw [advance, if_neg (by simp [hr])]
  rcases f with ⟨source, start, scratch, phase, copied, failure, closes, cancelled⟩
  cases cancelled with
  | true => exact Or.inl ⟨rfl, rfl⟩
  | false =>
    right
    cases phase with
    | asking =>
      by_cases hd : (origin.read source (min scratch ring.capacity)).delay = 0
      · refine Or.inr ⟨rfl, _, _, .asked rfl hd, ?_⟩
        simp [ask, hd]
      · refine Or.inl ⟨rfl, rfl, Nat.pos_of_ne_zero hd, ?_⟩
        simp [ask, hd]
    | awaiting due answer => exact Or.inr ⟨rfl, _, _, .waited rfl, rfl⟩
    | blocked rest left woken =>
      refine Or.inr ⟨rfl, _, _, .left rfl, ?_⟩
      simp [take, left]
    | stopped => cases hr

theorem advance_of_cancelled (hc : f.cancelled = true) (hr : f.isReady now = true) :
    f.advance origin now ring = f.halt ring false (some .cancelled) := by
  rcases advance_cases origin ring hr with ⟨-, he⟩ | ⟨hgo, -⟩ | ⟨hgo, -⟩
  · exact he
  · cases hc.symm.trans hgo
  · cases hc.symm.trans hgo

/-- Why a feed stops on an answer, for the given cause. -/
inductive Ends (ring : Ring) : Except Failure ByteArray → Option Failure → Prop
  | failed (cause : Failure) : Ends ring (.error cause) (some cause)
  | spent {bytes : ByteArray} (hz : bytes.size = 0) : Ends ring (.ok bytes) none
  | shut {bytes : ByteArray} (hclosed : ring.isClosed = true) : Ends ring (.ok bytes) (some (.ring .closed))

/-- With an answer a feed stops, or waits with the bytes since the ring is full, or puts as many of them
    there as find room. -/
theorem take_cases (hring : ring.Sound) (f : Feed σ) (answer : Except Failure ByteArray) :
    (∃ cause, Ends ring answer cause ∧ f.take ring answer = f.halt ring false cause) ∨
    (∃ rest, ∃ left : 0 < rest.size, answer = .ok rest ∧ ring.isClosed = false ∧ ring.free = 0 ∧
      f.take ring answer = ⟨ring, false, { f with phase := .blocked rest left false }⟩) ∨
    (∃ rest n, answer = .ok rest ∧ ring.isClosed = false ∧ 0 < n ∧ n = min ring.free rest.size ∧
      f.take ring answer = ⟨ring.put (rest.extract 0 n), true,
        { f with phase := afterPut rest n, copied := f.copied + n }⟩) := by
  cases answer with
  | error cause => exact Or.inl ⟨_, .failed cause, rfl⟩
  | ok rest =>
    by_cases hpos : 0 < rest.size
    · simp only [take, hpos, dif_pos, pour]
      by_cases hclosed : ring.isClosed = true
      · rw [if_pos hclosed]
        exact Or.inl ⟨_, .shut hclosed, rfl⟩
      · have hopen : ring.isClosed = false := by simpa using hclosed
        rw [if_neg hclosed]
        by_cases hfull : ring.free = 0
        · rw [if_pos hfull]
          exact Or.inr (Or.inl ⟨rest, hpos, rfl, hopen, hfull, rfl⟩)
        · rw [if_neg hfull]
          have hfree := Ring.free_of_open hopen
          have hsize : (rest.extract 0 (min ring.free rest.size)).size = min ring.free rest.size := by
            rw [ByteArray.size_extract]
            omega
          have hroom := hring.room
          have happend : ring.append (rest.extract 0 (min ring.free rest.size)) = _ :=
            Ring.append_of_room hring hopen (by omega) (by omega)
          rw [happend]
          exact Or.inr (Or.inr ⟨rest, _, rfl, hopen, by omega, rfl, rfl⟩)
    · refine Or.inl ⟨none, .spent (by omega), ?_⟩
      simp only [take, hpos, dif_neg, not_false_eq_true]

/-! ### What a step keeps -/

/-- What the work of a feed keeps of a ring. -/
structure Worked (ring after : Ring) (woke : Bool) : Prop where
  sound : after.Sound
  capacity : after.capacity = ring.capacity
  start : after.start = ring.start
  isClosed : after.isClosed = ring.isClosed
  asleep : woke = false → after = ring
  ends : ring.EndsWithin → after.EndsWithin

theorem Worked.refl (hring : ring.Sound) : Worked ring ring false := ⟨hring, rfl, rfl, rfl, fun _ => rfl, id⟩

theorem worked_finish (hring : ring.Sound) : Worked ring ring.finish.ring ring.finish.woke := by
  refine ⟨Ring.sound_finish hring, ?_, ?_, Ring.isClosed_finish ring, ?_, Ring.EndsWithin.finish⟩
  all_goals
    unfold Ring.finish
    split
  · rfl
  · rfl
  · rfl
  · rfl
  · exact fun _ => rfl
  · exact fun h => nomatch h

theorem worked_halt (hring : ring.Sound) (f : Feed σ) (cause : Option Failure) :
    Worked ring (f.halt ring false cause).ring (f.halt ring false cause).woke := by
  have h := worked_finish hring
  exact ⟨h.sound, h.capacity, h.start, h.isClosed, fun hw => h.asleep (by simpa [halt] using hw), h.ends⟩

theorem worked_put (hring : ring.Sound) (rest : ByteArray) {n : Nat} (hopen : ring.isClosed = false)
    (hn : n = min ring.free rest.size) : Worked ring (ring.put (rest.extract 0 n)) true := by
  have hfree := Ring.free_of_open hopen
  have hroom := hring.room
  have hsize : (rest.extract 0 n).size = n := by
    rw [ByteArray.size_extract]
    omega
  have hfits : ring.len + (rest.extract 0 n).size ≤ ring.capacity := by omega
  exact ⟨Ring.sound_put hring hfits, rfl, rfl, Ring.isClosed_put ring _, fun h => (nomatch h), Ring.endsWithin_put hfits⟩

theorem worked_take (hring : ring.Sound) (f : Feed σ) (answer : Except Failure ByteArray) :
    Worked ring (f.take ring answer).ring (f.take ring answer).woke := by
  rcases take_cases hring f answer with ⟨cause, -, he⟩ | ⟨rest, left, -, -, -, he⟩ | ⟨rest, n, -, hopen, -, hn, he⟩
  · rw [he]
    exact worked_halt hring f cause
  · rw [he]
    exact Worked.refl hring
  · rw [he]
    exact worked_put hring rest hopen hn

theorem worked_advance (hring : ring.Sound) (origin : Origin σ) (hr : f.isReady now = true) :
    Worked ring (f.advance origin now ring).ring (f.advance origin now ring).woke := by
  rcases advance_cases origin ring hr with ⟨-, he⟩ | ⟨-, -, -, he⟩ | ⟨-, answer, next, -, he⟩
  · rw [he]
    exact worked_halt hring f _
  · rw [he]
    exact Worked.refl hring
  · rw [he]
    exact worked_take hring _ answer

/-- What a feed is from its start to its end; and once it has stopped, it has. -/
structure Same (f after : Feed σ) : Prop where
  start : after.start = f.start
  scratch : after.scratch = f.scratch
  cancelled : after.cancelled = f.cancelled
  stopped : f.isStopped = true → after.isStopped = true

theorem Same.refl (f : Feed σ) : Same f f := ⟨rfl, rfl, rfl, id⟩

theorem Same.trans {g after : Feed σ} (h : Same f g) (h' : Same g after) : Same f after :=
  ⟨h'.start.trans h.start, h'.scratch.trans h.scratch, h'.cancelled.trans h.cancelled, h'.stopped ∘ h.stopped⟩

theorem wake_eq (f : Feed σ) : ∃ phase, f.wake = { f with phase } := by
  rcases f with ⟨source, start, scratch, phase, copied, failure, closes, cancelled⟩
  cases phase <;> exact ⟨_, rfl⟩

theorem same_wake (f : Feed σ) : Same f f.wake := by
  rcases f with ⟨source, start, scratch, phase, copied, failure, closes, cancelled⟩
  cases phase <;> exact ⟨rfl, rfl, rfl, id⟩

/-- `after` is what the feed is later on: once it has stopped, or was told to, that remains. -/
structure Follows (f after : Feed σ) : Prop where
  start : after.start = f.start
  cancelled : f.cancelled = true → after.cancelled = true
  stopped : f.isStopped = true → after.isStopped = true

theorem Same.follows {after : Feed σ} (h : Same f after) : Follows f after :=
  ⟨h.start, fun hc => h.cancelled.trans hc, h.stopped⟩

theorem Follows.cancel {after : Feed σ} (h : Follows f after) : Follows f after.cancel :=
  ⟨h.start, fun _ => rfl, h.stopped⟩

theorem isStopped_iff : f.isStopped = true ↔ f.phase = .stopped := by
  unfold isStopped
  split <;> simp_all

theorem wake_of_isStopped (h : f.isStopped = true) : f.wake = f := by
  simp only [wake, isStopped_iff.mp h]

theorem isStopped_of_isReady (hr : f.isReady now = true) : f.isStopped = false := by
  cases hs : f.isStopped with
  | false => rfl
  | true =>
    rw [isReady_of_phase_eq_stopped (isStopped_iff.mp hs)] at hr
    cases hr

theorem same_take (hring : ring.Sound) (f : Feed σ) (hrun : f.isStopped = false) (answer : Except Failure ByteArray) :
    Same f (f.take ring answer).feed := by
  have hgo : f.isStopped = true → ∀ g : Feed σ, g.isStopped = true := fun h => by
    rw [hrun] at h
    cases h
  rcases take_cases hring f answer with ⟨cause, -, he⟩ | ⟨rest, left, -, -, -, he⟩ | ⟨rest, n, -, -, -, -, he⟩
  all_goals
    rw [he]
    exact ⟨rfl, rfl, rfl, fun h => hgo h _⟩

theorem same_advance (hring : ring.Sound) (origin : Origin σ) (hr : f.isReady now = true) :
    Same f (f.advance origin now ring).feed := by
  have hrun := isStopped_of_isReady hr
  have hgo : f.isStopped = true → ∀ g : Feed σ, g.isStopped = true := fun h => by
    rw [hrun] at h
    cases h
  rcases advance_cases origin ring hr with ⟨-, he⟩ | ⟨-, -, -, he⟩ | ⟨-, answer, next, -, he⟩
  · rw [he]
    exact ⟨rfl, rfl, rfl, fun h => hgo h _⟩
  · rw [he]
    exact ⟨rfl, rfl, rfl, fun h => hgo h _⟩
  · rw [he]
    have h := same_take hring { f with source := next } hrun answer
    exact ⟨h.start, h.scratch, h.cancelled, h.stopped⟩

/-! ### Feeds that wait for room -/

/-- Whether the feed waits for room and has not been told of any since. -/
def isAsleep (f : Feed σ) : Bool :=
  match f.phase with
  | .blocked _ _ woken => !woken
  | _ => false

@[simp] theorem isAsleep_wake (f : Feed σ) : f.wake.isAsleep = false := by
  rcases f with ⟨source, start, scratch, phase, copied, failure, closes, cancelled⟩
  cases phase <;> rfl

/-- A feed goes to sleep on a full ring only. -/
theorem free_of_isAsleep_take (hring : ring.Sound) (f : Feed σ) (answer : Except Failure ByteArray)
    (h : (f.take ring answer).feed.isAsleep = true) : (f.take ring answer).ring.free = 0 := by
  rcases take_cases hring f answer with ⟨cause, -, he⟩ | ⟨rest, left, -, -, hfull, he⟩ | ⟨rest, n, -, hopen, -, hn, he⟩
  · rw [he] at h
    cases h
  · rw [he]
    exact hfull
  · rw [he] at h ⊢
    simp only [isAsleep, afterPut] at h
    split at h
    · rename_i hphase
      split at hphase
      · have hfree := Ring.free_of_open hopen
        have hroom := hring.room
        have hsize : (rest.extract 0 n).size = n := by
          rw [ByteArray.size_extract]
          omega
        rw [Ring.free_of_open (by simpa using hopen), Ring.len_put, Ring.capacity_put, hsize]
        omega
      · cases hphase
    · cases h

theorem free_of_isAsleep_advance (hring : ring.Sound) (origin : Origin σ) (hr : f.isReady now = true)
    (h : (f.advance origin now ring).feed.isAsleep = true) : (f.advance origin now ring).ring.free = 0 := by
  rcases advance_cases origin ring hr with ⟨-, he⟩ | ⟨-, -, -, he⟩ | ⟨-, answer, next, -, he⟩
  · rw [he] at h
    cases h
  · rw [he] at h
    cases h
  · rw [he] at h ⊢
    exact free_of_isAsleep_take hring _ answer h

/-- A feed goes to sleep on an open ring only. -/
theorem open_of_isAsleep_advance (hring : ring.Sound) (origin : Origin σ) (hr : f.isReady now = true)
    (h : (f.advance origin now ring).feed.isAsleep = true) : (f.advance origin now ring).ring.isClosed = false := by
  rcases advance_cases origin ring hr with ⟨-, he⟩ | ⟨-, -, -, he⟩ | ⟨-, answer, next, -, he⟩
  · rw [he] at h
    cases h
  · rw [he] at h
    cases h
  · rcases take_cases hring { f with source := next } answer with
      ⟨cause, -, htake⟩ | ⟨rest, left, -, hopen, -, htake⟩ | ⟨rest, n, -, hopen, -, -, htake⟩
    all_goals rw [he, htake] at h ⊢
    · cases h
    · exact hopen
    · exact (Ring.isClosed_put ring _).trans hopen

end Feed
end ReadAhead
