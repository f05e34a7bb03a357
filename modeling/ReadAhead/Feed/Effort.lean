import ReadAhead.Feed
import ReadAhead.Ring.Lemmas

/-! How much work a feed has left. Every byte that a feed puts into its ring takes room away, so a feed
    can do only so much before somebody makes room. A step either stops a feed or leaves it less to do. -/

namespace ReadAhead

namespace Feed
variable {σ : Type}

/-- The work left to a feed in a phase that finds `room` bytes free in its ring. -/
def Phase.effort (room : Nat) : Phase → Nat
  | .asking => 4 * room + 4
  | .awaiting _ _ => 4 * room + 3
  | .blocked _ _ true => 4 * room + 2
  | .blocked _ _ false => 4 * room + 1
  | .stopped => 0

/-- The work left to a feed that finds `room` bytes free in its ring. -/
def effort (room : Nat) (f : Feed σ) : Nat := f.phase.effort room

@[simp] theorem isStopped_wake (f : Feed σ) : f.wake.isStopped = f.isStopped := by
  rcases f with ⟨_, _, _, phase, _, _, _, _⟩
  cases phase <;> rfl

@[simp] theorem isStopped_cancel (f : Feed σ) : f.cancel.isStopped = f.isStopped := rfl

@[simp] theorem effort_cancel (room : Nat) (f : Feed σ) : f.cancel.effort room = f.effort room := rfl

/-- Being woken costs one unit, less than the room that a woken feed lost. -/
theorem effort_wake {room less : Nat} (h : less < room) (f : Feed σ) : f.wake.effort less ≤ f.effort room := by
  rcases f with ⟨_, _, _, phase, _, _, _, _⟩
  cases phase with
  | blocked rest left woken => cases woken <;> simp only [wake, effort, Phase.effort] <;> omega
  | _ =>
    simp only [wake, effort, Phase.effort]
    omega

theorem effort_mono {room less : Nat} (h : less ≤ room) (f : Feed σ) : f.effort less ≤ f.effort room := by
  rcases f with ⟨_, _, _, phase, _, _, _, _⟩
  unfold effort
  cases phase with
  | blocked rest left woken => cases woken <;> simp only [Phase.effort] <;> omega
  | _ =>
    simp only [Phase.effort]
    omega

/-- What a step leaves of a `budget` of work: the feed stopped, or it has less left than the budget, and
    if others were woken there is less room than before. The ring is closed if it was before. -/
structure Spent (ring : Ring) (budget : Nat) (a : After σ) : Prop where
  closed : a.ring.isClosed = ring.isClosed
  less : a.feed.isStopped = true ∨
    (a.feed.isStopped = false ∧ a.feed.effort a.ring.free < budget ∧ a.ring.free ≤ ring.free ∧
      (a.woke = true → a.ring.free < ring.free))

theorem spent_halt (f : Feed σ) {ring other : Ring} (h : ring.isClosed = other.isClosed) (woke : Bool)
    (cause : Option Failure) (budget : Nat) : Spent other budget (f.halt ring woke cause) :=
  ⟨(Ring.isClosed_finish ring).trans h, Or.inl rfl⟩

theorem isStopped_afterPut (rest : ByteArray) (n : Nat) : afterPut rest n ≠ .stopped := by
  unfold afterPut
  split <;> simp

theorem effort_afterPut (room : Nat) (rest : ByteArray) (n : Nat) :
    (afterPut rest n).effort room ≤ 4 * room + 4 := by
  unfold afterPut
  split <;> simp only [Phase.effort] <;> omega

theorem isStopped_eq_false {f : Feed σ} (h : f.phase ≠ .stopped) : f.isStopped = false := by
  unfold isStopped
  split <;> simp_all

/-- A feed that has bytes to put into the ring spends room, or blocks. -/
theorem spent_pour (f : Feed σ) (ring : Ring) {rest : ByteArray} (left : 0 < rest.size) {budget : Nat}
    (hb : 4 * ring.free + 1 < budget) : Spent ring budget (f.pour ring rest left) := by
  unfold pour
  by_cases hopen : ring.isClosed = true
  · rw [if_pos hopen]
    exact spent_halt _ rfl _ _ _
  · rw [if_neg hopen]
    by_cases hfull : ring.free = 0
    · rw [if_pos hfull]
      exact ⟨rfl, Or.inr ⟨rfl, hb, Nat.le_refl _, by simp⟩⟩
    · rw [if_neg hfull]
      have hn : (rest.extract 0 (min ring.free rest.size)).size = min ring.free rest.size := by
        rw [ByteArray.size_extract]
        omega
      have hclosed := Ring.isClosed_append ring (rest.extract 0 (min ring.free rest.size))
      simp only
      split
      · exact spent_halt _ hclosed _ _ _
      · rename_i n hok
        have hfree := Ring.free_append hok
        rw [hn] at hfree
        have he := effort_afterPut (ring.append (rest.extract 0 (min ring.free rest.size))).ring.free rest
          (min ring.free rest.size)
        refine ⟨hclosed, Or.inr ⟨isStopped_eq_false (isStopped_afterPut _ _), ?_, ?_, fun _ => ?_⟩⟩
        · simp only [effort]
          omega
        · simp only
          omega
        · simp only
          omega

theorem spent_take (f : Feed σ) (ring : Ring) (answer : Except Failure ByteArray) {budget : Nat}
    (hb : 4 * ring.free + 1 < budget) : Spent ring budget (f.take ring answer) := by
  unfold take
  split
  · exact spent_halt _ rfl _ _ _
  · split
    · exact spent_pour _ _ _ hb
    · exact spent_halt _ rfl _ _ _

/-- A step of a feed that can take one leaves less to do, or stops it. -/
theorem spent_advance {f : Feed σ} (origin : Origin σ) (now : Nat) (ring : Ring) (h : f.isReady now = true) :
    Spent ring (f.effort ring.free) (f.advance origin now ring) := by
  unfold advance
  rw [h]
  simp only [Bool.not_true, Bool.false_eq_true, if_false]
  split
  · exact spent_halt _ rfl _ _ _
  · rename_i hc
    split
    · rename_i hp
      have he : f.effort ring.free = 4 * ring.free + 4 := by rw [effort, hp, Phase.effort]
      unfold ask
      simp only
      split
      · exact spent_take _ _ _ (by omega)
      · refine ⟨rfl, Or.inr ⟨rfl, ?_, Nat.le_refl _, by simp⟩⟩
        simp only [effort, Phase.effort] at he ⊢
        omega
    · rename_i hp
      exact spent_take _ _ _ (by rw [effort, hp, Phase.effort]; omega)
    · rename_i rest left woken hp
      have hw : woken = true := by simpa [isReady, hp, hc] using h
      exact spent_pour _ _ _ (by rw [effort, hp, hw, Phase.effort]; omega)
    · rename_i hp
      simp [isReady, hp] at h

end Feed
end ReadAhead
