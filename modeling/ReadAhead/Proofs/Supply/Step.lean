import Mathlib.Logic.Relation
import ReadAhead.Proofs.Feed.Step
import ReadAhead.Proofs.Ring.Queue
import ReadAhead.Supply

/-! The steps of a feed on a ring that others work on too. Between any two steps of the feed time may pass, the
    feed may be told to stop, and others may do to the ring what `may` lets them. Running, settling, waiting and
    stopping come to states reached by such steps, so what these keep holds of all of them. -/

namespace ReadAhead
namespace Ring
variable {r : Ring}

/-- What an operation answers and leaves, and whether it wakes those who wait on the ring. -/
def work (r : Ring) : Op → After Answer
  | .append data => ⟨(r.append data).ring, (r.append data).woke, .appended (r.append data).answer⟩
  | .readAt n position =>
    ⟨(r.readAt n position).ring, (r.readAt n position).woke,
      .read ((r.readAt n position).answer.map fun bytes => bytes.data.toList)⟩
  | .reset start => ⟨(r.reset start).ring, (r.reset start).woke, .reset (r.reset start).answer⟩
  | .finish => ⟨r.finish.ring, r.finish.woke, .done⟩
  | .close => ⟨r.close.ring, r.close.woke, .done⟩
  | .isResident position => ⟨r, false, .resident (r.isResident position)⟩
  | .availability position => ⟨r, false, .availability (r.availability position)⟩
  | .look => ⟨r, false, .view ⟨r.capacity, r.start, r.writePosition, r.len, r.free, r.stop, r.isClosed⟩⟩

theorem work_eq_step (r : Ring) (op : Op) : ((r.work op).answer, (r.work op).ring) = r.step op := by cases op <;> rfl

theorem run_singleton (op : Op) (r : Ring) : (run [op] r).2 = (r.work op).ring :=
  (congrArg Prod.snd (work_eq_step r op)).symm

theorem run_append (ops more : List Op) (r : Ring) : (run (ops ++ more) r).2 = (run more (run ops r).2).2 := by
  induction ops generalizing r with
  | nil => rfl
  | cons op ops ih => exact ih (r.step op).2

/-- A read leaves the ring as it is, or takes bytes from the window. -/
theorem readAt_cases (h : r.Sound) (n position : Nat) :
    (r.readAt n position).ring = r ∨ r.isResident position = true ∧
      ∃ bytes, (r.readAt n position).answer = .ok bytes ∧ Taken r n position bytes (r.readAt n position).ring := by
  cases hres : r.isResident position with
  | false => exact Or.inl (by rw [readAt_of_not_resident hres])
  | true =>
    obtain ⟨bytes, left, he, ht⟩ := readAt_of_resident h hres n
    rw [he]
    exact Or.inr ⟨rfl, bytes, rfl, ht⟩

theorem sound_work (h : r.Sound) (op : Op) : (r.work op).ring.Sound := by
  cases op with
  | append data =>
    rcases append_cases r data with ⟨cause, -, he⟩ | ⟨-, -, he⟩ | ⟨hr, -, he⟩
    · simpa only [work, he] using h
    · simpa only [work, he] using h
    · simpa only [work, he] using sound_put h ((refusal?_eq_none h).mp hr).2
  | readAt n position =>
    rcases readAt_cases h n position with he | ⟨-, bytes, -, ht⟩
    · simpa only [work, he] using h
    · exact ht.sound
  | reset start =>
    cases hopen : r.isClosed with
    | true => simpa only [work, reset_of_closed hopen] using h
    | false => simpa only [work, reset_of_open hopen] using sound_emptied h start
  | finish => exact sound_finish h
  | close => exact sound_close h
  | isResident => exact h
  | availability => exact h
  | look => exact h

theorem capacity_work (r : Ring) (op : Op) : (r.work op).ring.capacity = r.capacity := by
  cases op with
  | append data =>
    rcases append_cases r data with ⟨cause, -, he⟩ | ⟨-, -, he⟩ | ⟨-, -, he⟩ <;> simp only [work, he, capacity_put]
  | readAt n position =>
    simp only [work, readAt]
    split
    · rfl
    · split
      · rfl
      · split <;> rfl
  | reset start =>
    simp only [work, reset]
    split <;> rfl
  | finish =>
    simp only [work, finish]
    split <;> rfl
  | close => exact capacity_close r
  | isResident => rfl
  | availability => rfl
  | look => rfl

theorem isClosed_work (h : r.isClosed = true) (op : Op) : (r.work op).ring.isClosed = true := by
  cases op with
  | append data => exact (isClosed_append r data).trans h
  | readAt n position => exact (isClosed_readAt r n position).trans h
  | reset start => exact (isClosed_reset r start).trans h
  | finish => exact (isClosed_finish r).trans h
  | close => exact isClosed_close r
  | isResident => exact h
  | availability => exact h
  | look => exact h

/-- What changes a ring wakes those who wait on it. -/
theorem work_of_not_woke (op : Op) (h : (r.work op).woke = false) : (r.work op).ring = r := by
  cases op with
  | append data =>
    rcases append_cases r data with ⟨cause, -, he⟩ | ⟨-, -, he⟩ | ⟨-, -, he⟩
    · simp only [work, he]
    · simp only [work, he]
    · simp only [work, he] at h
      cases h
  | readAt n position =>
    simp only [work, readAt] at h ⊢
    split
    · rfl
    · split
      · rfl
      · split <;> simp_all
  | reset start =>
    simp only [work, reset] at h ⊢
    split <;> simp_all
  | finish =>
    simp only [work, finish] at h ⊢
    split <;> simp_all
  | close =>
    simp only [work, close] at h ⊢
    split <;> simp_all
  | isResident => rfl
  | availability => rfl
  | look => rfl

end Ring

namespace Supply
variable {σ : Type} {origin : Origin σ} {may : Ring.Op → Prop} {limit : Nat} {s t : Supply σ}

/-- One step of a feed, of the time, or of others. -/
inductive Step (origin : Origin σ) (may : Ring.Op → Prop) (s : Supply σ) : Supply σ → Prop
  | move (h : s.feed.isReady s.now = true) : Step origin may s (s.happen origin .step)
  | wait {now : Nat} (hle : s.now ≤ now) : Step origin may s { s with now }
  | work {op : Ring.Op} (h : may op) : Step origin may s (s.onRing fun r => r.work op).2
  | cancel : Step origin may s s.cancel

abbrev Reaches (origin : Origin σ) (may : Ring.Op → Prop) : Supply σ → Supply σ → Prop :=
  Relation.ReflTransGen (Step origin may)

theorem step_happen {e : Event} (h : s.event? limit = some e) : Step origin may s (s.happen origin e) := by
  unfold event? at h
  split at h
  · rename_i hready
    obtain rfl := Option.some.inj h
    exact .move hready
  · obtain ⟨due, hdue, rfl⟩ := Option.map_eq_some_iff.mp h
    obtain ⟨-, hlt⟩ := Option.filter_eq_some_iff.mp hdue
    exact .wait (Nat.le_of_lt (of_decide_eq_true hlt).1)

theorem reaches_run (origin : Origin σ) (may : Ring.Op → Prop) (limit : Nat) (s : Supply σ) :
    Reaches origin may s (s.run origin limit) := by
  fun_induction run origin limit s with
  | case1 s hnone => exact .refl
  | case2 s e he ih => exact .head (step_happen he) ih

theorem event?_run (origin : Origin σ) (limit : Nat) (s : Supply σ) : (s.run origin limit).event? limit = none := by
  fun_induction run origin limit s with
  | case1 s hnone => exact hnone
  | case2 s e he ih => exact ih

theorem now_happen_le {e : Event} (h : s.event? limit = some e) : (s.happen origin e).now ≤ max s.now limit := by
  unfold event? at h
  split at h
  · obtain rfl := Option.some.inj h
    exact Nat.le_max_left _ _
  · obtain ⟨due, hdue, rfl⟩ := Option.map_eq_some_iff.mp h
    obtain ⟨-, hlt⟩ := Option.filter_eq_some_iff.mp hdue
    exact Nat.le_trans (of_decide_eq_true hlt).2 (Nat.le_max_right _ _)

theorem now_run_le (origin : Origin σ) (limit : Nat) (s : Supply σ) : (s.run origin limit).now ≤ max s.now limit := by
  fun_induction run origin limit s with
  | case1 s hnone => exact Nat.le_max_left _ _
  | case2 s e he ih =>
    have hnow : (s.happen origin e).now ≤ max s.now limit := now_happen_le he
    omega

theorem reaches_settle (origin : Origin σ) (may : Ring.Op → Prop) (s : Supply σ) : Reaches origin may s (s.settle origin) :=
  reaches_run origin may s.now s

theorem reaches_pass (origin : Origin σ) (may : Ring.Op → Prop) (millis : Nat) (s : Supply σ) :
    Reaches origin may s (s.pass origin millis) :=
  (reaches_run origin may _ s).tail (.wait (now_run_le origin _ s))

theorem reaches_stop (origin : Origin σ) (may : Ring.Op → Prop) (s : Supply σ) : Reaches origin may s (s.stop origin) :=
  .head .cancel (reaches_settle origin may s.cancel)

/-! ### What every step keeps -/

/-- What a step leaves of the ring and the feed. -/
structure Keeps (s t : Supply σ) : Prop where
  sound : t.ring.Sound
  follows : s.feed.Follows t.feed

theorem Step.keeps (h : Step origin may s t) (hring : s.ring.Sound) : Keeps s t := by
  cases h with
  | move hready =>
    exact ⟨(Feed.worked_advance hring origin hready).sound, (Feed.same_advance hring origin hready).follows⟩
  | wait => exact ⟨hring, (Feed.Same.refl _).follows⟩
  | @work op _ =>
    refine ⟨Ring.sound_work hring op, ?_⟩
    unfold onRing
    simp only
    split
    · exact (Feed.same_wake _).follows
    · exact (Feed.Same.refl _).follows
  | cancel => exact ⟨hring, (Feed.Same.refl _).follows.cancel⟩

theorem Keeps.trans {u : Supply σ} (h : Keeps s t) (h' : Keeps t u) : Keeps s u :=
  ⟨h'.sound, h'.follows.start.trans h.follows.start, h'.follows.cancelled ∘ h.follows.cancelled,
    h'.follows.stopped ∘ h.follows.stopped⟩

theorem keeps_of_reaches (h : Reaches origin may s t) (hring : s.ring.Sound) : Keeps s t := by
  induction h with
  | refl => exact ⟨hring, (Feed.Same.refl _).follows⟩
  | tail _ hstep ih => exact ih.trans (hstep.keeps ih.sound)

/-- A feed that was asked to stop, has stopped when that was waited for. -/
theorem isStopped_stop (origin : Origin σ) (hring : s.ring.Sound) : (s.stop origin).feed.isStopped = true := by
  have hkeeps := keeps_of_reaches (reaches_settle origin (fun _ => False) s.cancel) hring
  have hc : (s.stop origin).feed.cancelled = true := hkeeps.follows.cancelled rfl
  have hend : (s.stop origin).event? s.now = none := event?_run origin s.now s.cancel
  -- Whatever it waited for, a cancelled feed could go on; so it has stopped.
  generalize s.stop origin = u at hc hend
  unfold event? at hend
  split at hend
  · cases hend
  · rename_i hno
    rw [Feed.isStopped_iff]
    unfold Feed.isReady at hno
    rw [hc] at hno
    split at hno
    · exact absurd rfl hno
    · exact absurd rfl hno
    · exact absurd rfl hno
    · assumption

end Supply
end ReadAhead
