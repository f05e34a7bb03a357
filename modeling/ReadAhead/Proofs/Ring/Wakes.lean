import ReadAhead.Proofs.Ring.Queue

/-! Who waits for a change of a ring misses none. An operation either wakes everyone who waits, or it leaves
    the ring as it is (`wakes_or_same`); one that is turned away is always of the second kind. So whoever is
    still waiting after any number of operations waits at the very ring it began to wait at
    (`ring_of_waiting`). -/

namespace ReadAhead
namespace Ring
variable {r : Ring}

/-- Whether an operation wakes those who wait for a change of the ring. -/
def wakes (r : Ring) : Op → Bool
  | .append data => (r.append data).woke
  | .readAt n position => (r.readAt n position).woke
  | .reset start => (r.reset start).woke
  | .finish => r.finish.woke
  | .close => r.close.woke
  | .isResident _ | .availability _ | .look => false

def Answer.isError : Answer → Bool
  | .appended (.error _) | .read (.error _) | .reset (.error _) | .availability (.error _) => true
  | _ => false

/-- Whether an operation is turned away: its answer is an error, or the ring it is to finish or to close is
    closed. -/
def refuses (r : Ring) : Op → Bool
  | .finish | .close => r.isClosed
  | op => (r.step op).1.isError

/-- Two rings tell those who wait different things. -/
def Differs (r s : Ring) : Prop :=
  (∃ position, r.availability position ≠ s.availability position) ∨ r.free ≠ s.free ∨ r.stop ≠ s.stop ∨
    r.isClosed ≠ s.isClosed

theorem not_differs_self (r : Ring) : ¬r.Differs r := by
  rintro (⟨position, h⟩ | h | h | h) <;> exact h rfl

/-! ### One operation -/

/-- A read is refused, or it is answered with bytes and wakes. -/
theorem readAt_refused_or_taken (r : Ring) (n position : Nat) :
    (∃ cause, r.readAt n position = ⟨r, false, .error cause⟩) ∨
      ∃ bytes left, r.readAt n position = ⟨left, true, .ok bytes⟩ := by
  unfold readAt
  split
  · exact Or.inl ⟨_, rfl⟩
  · split
    · exact Or.inl ⟨_, rfl⟩
    · split
      · exact Or.inl ⟨_, rfl⟩
      · exact Or.inr ⟨_, _, rfl⟩

/-- An operation wakes and is not turned away, or it leaves the ring as it is. -/
theorem wakes_or_same (r : Ring) (op : Op) :
    (r.wakes op = true ∧ r.refuses op = false) ∨ (r.wakes op = false ∧ (r.step op).2 = r) := by
  cases op with
  | append data =>
    rcases append_cases r data with ⟨cause, -, he⟩ | ⟨-, -, he⟩ | ⟨-, -, he⟩
    · exact Or.inr (by simp [wakes, step, he])
    · exact Or.inr (by simp [wakes, step, he])
    · exact Or.inl (by simp [wakes, refuses, step, he, Answer.isError])
  | readAt n position =>
    rcases readAt_refused_or_taken r n position with ⟨cause, he⟩ | ⟨bytes, left, he⟩
    · exact Or.inr (by simp [wakes, step, he])
    · exact Or.inl (by simp [wakes, refuses, step, he, Answer.isError, Except.map])
  | reset start =>
    cases hopen : r.isClosed with
    | true => exact Or.inr (by simp [wakes, step, reset_of_closed hopen])
    | false => exact Or.inl (by simp [wakes, refuses, step, reset_of_open hopen, Answer.isError])
  | finish =>
    cases hopen : r.isClosed with
    | true => exact Or.inr (by simp [wakes, step, finish_of_closed hopen])
    | false => exact Or.inl ⟨by simp [wakes, finish_of_open hopen], hopen⟩
  | close =>
    cases hopen : r.isClosed with
    | true => exact Or.inr (by simp [wakes, step, close_of_closed hopen])
    | false => exact Or.inl ⟨by simp [wakes, close_of_open hopen], hopen⟩
  | isResident position => exact Or.inr ⟨rfl, rfl⟩
  | availability position => exact Or.inr ⟨rfl, rfl⟩
  | look => exact Or.inr ⟨rfl, rfl⟩

theorem wakes_of_differs {op : Op} (h : r.Differs (r.step op).2) : r.wakes op = true := by
  rcases wakes_or_same r op with ⟨hwakes, -⟩ | ⟨-, hsame⟩
  · exact hwakes
  · rw [hsame] at h
    exact absurd h (not_differs_self r)

theorem same_of_refuses {op : Op} (h : r.refuses op = true) : r.wakes op = false ∧ (r.step op).2 = r := by
  rcases wakes_or_same r op with ⟨-, htaken⟩ | hsame
  · rw [h] at htaken
    cases htaken
  · exact hsame

/-! ### Those who wait -/

/-- A ring, those who wait for a change of it, and those who have been woken. -/
structure Watched where
  ring : Ring
  waiting : List Nat
  woken : List Nat

namespace Watched

/-- An operation on the ring. If it wakes, it wakes everyone who waits. -/
def perform (w : Watched) (op : Op) : Watched :=
  if w.ring.wakes op then ⟨(w.ring.step op).2, [], w.woken ++ w.waiting⟩
  else { w with ring := (w.ring.step op).2 }

def performAll : List Op → Watched → Watched
  | [], w => w
  | op :: ops, w => performAll ops (w.perform op)

theorem perform_of_wakes {w : Watched} {op : Op} (h : w.ring.wakes op = true) :
    w.perform op = ⟨(w.ring.step op).2, [], w.woken ++ w.waiting⟩ := by
  rw [perform, if_pos h]

theorem perform_of_same {w : Watched} {op : Op} (h : w.ring.wakes op = false ∧ (w.ring.step op).2 = w.ring) :
    w.perform op = w := by
  rw [perform, h.1, h.2]
  rfl

@[simp] theorem ring_perform (w : Watched) (op : Op) : (w.perform op).ring = (w.ring.step op).2 := by
  unfold perform
  split <;> rfl

/-- An operation on a ring in whatever state wakes everyone who waits if it changes what can be expected at
    some position, the room left, the mark of a producer that stopped, or whether the ring is closed. If it
    is turned away, it wakes no one and the ring is as before, in all its parts. -/
theorem changes_are_heard (w : Watched) (op : Op) :
    (w.ring.Differs (w.perform op).ring →
      (w.perform op).waiting = [] ∧ (w.perform op).woken = w.woken ++ w.waiting) ∧
    (w.ring.refuses op = true → w.perform op = w) := by
  constructor
  · intro hdiffers
    rw [ring_perform] at hdiffers
    rw [perform_of_wakes (wakes_of_differs hdiffers)]
    exact ⟨rfl, rfl⟩
  · intro hrefuses
    exact perform_of_same (same_of_refuses hrefuses)

/-- A write of a byte into an empty ring wakes the two who wait, and one into a full ring changes nothing. -/
theorem full_ring_wakes_no_one :
    (perform ⟨onStorage ⟨#[0]⟩ 0, [7, 8], []⟩ (.append ⟨#[5]⟩)).woken = [7, 8] ∧
      perform (perform ⟨onStorage ⟨#[0]⟩ 0, [7, 8], []⟩ (.append ⟨#[5]⟩)) (.append ⟨#[6]⟩) =
        perform ⟨onStorage ⟨#[0]⟩ 0, [7, 8], []⟩ (.append ⟨#[5]⟩) := by
  refine ⟨((changes_are_heard ⟨onStorage ⟨#[0]⟩ 0, [7, 8], []⟩ (.append ⟨#[5]⟩)).1 (Or.inr (Or.inl ?_))).2,
    (changes_are_heard (perform ⟨onStorage ⟨#[0]⟩ 0, [7, 8], []⟩ (.append ⟨#[5]⟩)) (.append ⟨#[6]⟩)).2 ?_⟩
  · decide
  · rfl

/-- Operations make no one wait. -/
theorem waiting_performAll {w : Watched} {ops : List Op} (h : w.waiting = []) : (performAll ops w).waiting = [] := by
  induction ops generalizing w with
  | nil => exact h
  | cons op ops ih =>
    refine ih ?_
    unfold perform
    split
    · rfl
    · exact h

/-- Whoever still waits after some operations has missed nothing: the ring is the one it began to wait at. -/
theorem ring_of_waiting {w : Watched} {i : Nat} {ops : List Op} (h : i ∈ (performAll ops w).waiting) :
    (performAll ops w).ring = w.ring := by
  induction ops generalizing w with
  | nil => rfl
  | cons op ops ih =>
    rcases wakes_or_same w.ring op with ⟨hwakes, -⟩ | hsame
    · have hnone : (performAll ops (w.perform op)).waiting = [] :=
        waiting_performAll (by rw [perform_of_wakes hwakes])
      rw [performAll, hnone] at h
      cases h
    · rw [performAll, ih h, perform_of_same hsame]

end Watched
end Ring
end ReadAhead
