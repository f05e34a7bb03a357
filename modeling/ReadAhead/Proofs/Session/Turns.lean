import ReadAhead.Proofs.Session.Tasks

/-! Which read was the last to take its turn on the way to a session (`LastTurn`). A read takes its turn when it
    stands first in line and goes on from there; one that asks for nothing, or that is given up while it stands in
    line, never does. A read that is under way is the last that took its turn (`LastTurn.underWay`). -/

namespace ReadAhead

namespace Task

/-- Whether the task has begun and is not over. -/
def isUnderWay (t : Task) : Bool := !t.isQueued && !t.isOver

@[simp] theorem isUnderWay_wake (t : Task) : t.wake.isUnderWay = t.isUnderWay := by
  rw [isUnderWay, isUnderWay, isQueued_wake, isOver_wake]

theorem isUnderWay_iff {t : Task} : t.isUnderWay = true ↔ t.isQueued = false ∧ t.isOver = false := by
  rw [isUnderWay, Bool.and_eq_true, Bool.not_eq_true', Bool.not_eq_true']

theorem isUnderWay_read {r : Reading} :
    (Task.read r).isUnderWay = true ↔ r.phase ≠ .queued ∧ (Task.read r).isOver = false := by
  rw [isUnderWay_iff]
  rcases r with ⟨len, position, wait, deadline, phase⟩
  cases phase <;> simp [isQueued]

theorem exists_read_of_told {t : Task} {r : Reading} (woke : Bool) (h : (if woke then t.wake else t) = .read r) :
    ∃ r', t = .read r' := by
  cases woke with
  | false => exact ⟨r, h⟩
  | true =>
    obtain ⟨r', rfl, -⟩ := eq_read_of_wake h
    exact ⟨r', rfl⟩

end Task

namespace Session
variable {σ : Type} {origin : Origin σ} {may : Session σ → Act → Prop} {s s₀ t : Session σ} {i j : Nat} {r : Reading}
  {last : Option (Nat × Session σ)}

/-- Between `s` and `t` read `i`, the first in line, takes its turn. -/
def TakesTurn (origin : Origin σ) (s : Session σ) (i : Nat) (t : Session σ) : Prop :=
  ∃ r, s.turns.head? = some i ∧ s.tasks[i]? = some (.read r) ∧ r.phase = .queued ∧ t = s.turn origin i

/-- The read, if any, that was the last to take its turn on the way from `s₀` to a session, and the session in which
    it did. -/
inductive LastTurn (origin : Origin σ) (may : Session σ → Act → Prop) (s₀ : Session σ) :
    Option (Nat × Session σ) → Session σ → Prop
  | new : LastTurn origin may s₀ none s₀
  | turn {last : Option (Nat × Session σ)} {s t : Session σ} {i : Nat} (h : LastTurn origin may s₀ last s)
    (hturn : s.TakesTurn origin i t) : LastTurn origin may s₀ (some (i, s)) t
  | other {last : Option (Nat × Session σ)} {s t : Session σ} (h : LastTurn origin may s₀ last s)
    (hstep : Weave origin may s t) (hno : ∀ i, ¬ s.TakesTurn origin i t) : LastTurn origin may s₀ last t

theorem TakesTurn.weave (h : s.TakesTurn origin i t) : Weave origin may s t := by
  obtain ⟨r, hhead, hi, hp, rfl⟩ := h
  exact .move (m := .task i) ⟨hhead, by simp only [taskReady, hi, hp]⟩

theorem LastTurn.weaves (h : LastTurn origin may s₀ last s) : Weaves origin may s₀ s := by
  induction h with
  | new => exact .refl
  | turn _ hturn ih => exact ih.tail hturn.weave
  | other _ hstep _ ih => exact ih.tail hstep

theorem exists_lastTurn (h : Weaves origin may s₀ s) : ∃ last, LastTurn origin may s₀ last s := by
  induction h with
  | refl => exact ⟨none, .new⟩
  | @tail u v _ hstep ih =>
    obtain ⟨last, hu⟩ := ih
    by_cases hturn : ∃ i, u.TakesTurn origin i v
    · obtain ⟨i, hi⟩ := hturn
      exact ⟨some (i, u), hu.turn hi⟩
    · exact ⟨last, hu.other hstep fun i hi => hturn ⟨i, hi⟩⟩

/-! ### Reads under way -/

/-- What the owner does puts no task under way. -/
theorem underWay_act {a : Act} {x : Task} (hj : (s.act a).tasks[j]? = some x) (hgo : x.isUnderWay = true) :
    ∃ woke : Bool, (s.tasks[j]?.map fun y => if woke then y.wake else y) = some x := by
  have hpushed : ∀ {tasks : List Task} {new : Task}, new.isUnderWay = false → (tasks ++ [new])[j]? = some x →
      tasks[j]? = some x := by
    intro tasks new hnew hx
    rcases getElem?_push.mp hx with hold | ⟨-, rfl⟩
    · exact hold
    · rw [hnew] at hgo
      cases hgo
  cases a with
  | start len position timeout =>
    refine ⟨false, ?_⟩
    simp only [Session.act, Session.start] at hj
    simp only [Bool.false_eq_true, if_false, Option.map_id_fun', id]
    repeat' split at hj
    all_goals exact hpushed rfl hj
  | abandon i =>
    refine ⟨false, ?_⟩
    simp only [Session.act, Session.abandon] at hj
    simp only [Bool.false_eq_true, if_false, Option.map_id_fun', id]
    repeat' split at hj
    · exact hj
    · by_cases hij : i = j
      · subst hij
        rw [eq_of_getElem?_set hj] at hgo
        cases hgo
      · rwa [tasks_endTask, List.getElem?_set_ne hij] at hj
    · exact hj
  | close =>
    simp only [Session.act, Session.startClose] at hj
    split at hj
    · refine ⟨false, ?_⟩
      simp only [Bool.false_eq_true, if_false, Option.map_id_fun', id]
      exact hpushed rfl hj
    · refine ⟨s.ring.close.woke, ?_⟩
      have hold := hpushed rfl hj
      rwa [tasks_cancelAll, tasks_setRing, List.getElem?_map] at hold
  | letGo => exact ⟨false, by simpa [Session.act, Session.letGo] using hj⟩

/-- A task that moves is the same task further on, and the others are told of a change or not. -/
theorem Orderly.task_move {m : Mover} {y : Task} (h : s.Orderly) (hm : s.CanMove m)
    (hj : (s.move origin m).tasks[j]? = some y) :
    (∃ woke : Bool, (s.tasks[j]?.map fun x => if woke then x.wake else x) = some y) ∨
      m = .task j ∧ ∃ x, s.tasks[j]? = some x ∧ x.isOver = false ∧ x.Onward y := by
  by_cases hmj : m = .task j
  · subst hmj
    obtain ⟨x, hx, hover⟩ := (h.lined.mem_iff j).mp (List.mem_of_mem_head? hm.1)
    obtain ⟨new, honward, hmoved, -⟩ : ∃ new, x.Onward new ∧ Moved s (s.turn origin j) j new ∧ _ :=
      h.moved_turn hx hm.2
    obtain rfl : new = y := Option.some.inj ((hmoved.task (List.getElem?_eq_some_iff.mp hx).1).symm.trans hj)
    exact Or.inr ⟨rfl, x, hx, hover, honward⟩
  · obtain ⟨i, hji, hspares⟩ := exists_spares_move origin s hmj
    obtain ⟨woke, ht⟩ := hspares.others j hji
    exact Or.inl ⟨woke, ht.symm.trans hj⟩

/-- A read under way was so before, or it takes its turn. -/
theorem Orderly.underWay_weave (h : s.Orderly) (hstep : Weave origin may s t) (hj : t.tasks[j]? = some (.read r))
    (hgo : (Task.read r).isUnderWay = true) :
    s.TakesTurn origin j t ∨ ∃ r', s.tasks[j]? = some (.read r') ∧ (Task.read r').isUnderWay = true := by
  have htold : (∃ woke : Bool, (s.tasks[j]?.map fun y => if woke then y.wake else y) = some (.read r)) →
      ∃ r', s.tasks[j]? = some (.read r') ∧ (Task.read r').isUnderWay = true := by
    rintro ⟨woke, hx⟩
    obtain ⟨x, hx, hxr⟩ := Option.map_eq_some_iff.mp hx
    obtain ⟨r', rfl⟩ := Task.exists_read_of_told woke hxr
    refine ⟨r', hx, ?_⟩
    rw [← hxr] at hgo
    cases woke <;> simpa using hgo
  cases hstep with
  | wait => exact Or.inr ⟨r, hj, hgo⟩
  | act => exact Or.inr (htold (underWay_act hj hgo))
  | @move m hm =>
    rcases h.task_move hm hj with hold | ⟨rfl, x, hx, hover, honward⟩
    · exact Or.inr (htold hold)
    · generalize hread : Task.read r = y at honward
      cases honward with
      | close => cases hread
      | read r' =>
        by_cases hp : r'.phase = .queued
        · exact Or.inl ⟨r', hm.1, hx, hp, rfl⟩
        · exact Or.inr ⟨r', hx, Task.isUnderWay_read.mpr ⟨hp, hover⟩⟩

/-- A read that is under way is the last that took its turn, if none was under way before. -/
theorem LastTurn.underWay (h₀ : s₀.Orderly) (hidle : ∀ x ∈ s₀.tasks, x.isUnderWay = false)
    (h : LastTurn origin may s₀ last s) (hj : s.tasks[j]? = some (.read r)) (hgo : (Task.read r).isUnderWay = true) :
    ∃ u, last = some (j, u) := by
  induction h generalizing r with
  | new => cases (hidle _ (List.mem_of_getElem? hj)).symm.trans hgo
  | @turn _ s t i h hturn ih =>
    have horderly := h₀.weaves h.weaves
    have hweave : Weave origin may s t := hturn.weave
    rcases horderly.underWay_weave hweave hj hgo with hj | ⟨r', hj, hgo⟩
    · obtain ⟨-, hhead, -⟩ := hj
      obtain ⟨-, hhead', -⟩ := hturn
      obtain rfl := Option.some.inj (hhead.symm.trans hhead')
      exact ⟨s, rfl⟩
    · -- Whoever is under way stands first in line, where a queued read takes its turn.
      obtain ⟨r'', hhead, hi, hp, -⟩ := hturn
      obtain ⟨hq, hover⟩ := Task.isUnderWay_iff.mp hgo
      obtain rfl := Option.some.inj ((horderly.lined.head hj hover hq).symm.trans hhead)
      obtain rfl := Task.read.inj (Option.some.inj (hj.symm.trans hi))
      exact absurd hp (Task.isUnderWay_read.mp hgo).1
  | other h hstep hno ih =>
    rcases (h₀.weaves h.weaves).underWay_weave hstep hj hgo with hturn | ⟨r', hj, hgo⟩
    · exact absurd hturn (hno j)
    · exact ih hj hgo

/-! ### Steps that are no turns of a queued read -/

/-- Task `i` has begun. -/
def Begun (s : Session σ) (i : Nat) : Prop := ∃ x, s.tasks[i]? = some x ∧ x.isQueued = false

theorem begun_set {u : Session σ} {x : Task} (hlt : i < u.tasks.length) (hx : x.isQueued = false)
    (ht : t.tasks = u.tasks.set i x) : t.Begun i :=
  ⟨x, by rw [ht, List.getElem?_set_self hlt], hx⟩

theorem Looked.begun {stop : Nat} (hlt : i < s.tasks.length) (hl : Looked s i r stop t) : t.Begun i := by
  cases hl with
  | @served _ _ _ bytes left _ =>
    refine begun_set (u := (s.setRing left true).note .ready) ?_ rfl rfl
    simpa [tasks_setRing] using hlt
  | late => exact begun_set (u := s.note .filling) (by simpa using hlt) rfl rfl
  | waits => exact begun_set (u := s.note .filling) (by simpa using hlt) rfl rfl
  | closed => exact begun_set hlt rfl rfl
  | shut => exact begun_set hlt rfl rfl
  | short => exact begun_set hlt rfl rfl

theorem ReadTurn.begun (hlt : i < s.tasks.length) (ht : ReadTurn origin s i r t) : t.Begun i := by
  cases ht with
  | closed => exact begun_set hlt rfl rfl
  | dismiss => exact begun_set hlt rfl rfl
  | restart _ hr =>
    cases hr with
    | shut => exact begun_set hlt rfl rfl
    | refused => exact begun_set (u := (s.rebound (s.restartAt r)).note .idle) (by simpa using hlt) rfl rfl
    | connected _ _ hlook => exact hlook.begun (by simpa using hlt)
  | look _ hl => exact hl.begun hlt
  | late => exact begun_set hlt rfl rfl

theorem TakesTurn.begins (h : s.TakesTurn origin i t) (horderly : s.Orderly) : ¬ s.Begun i ∧ t.Begun i := by
  obtain ⟨r, hhead, hi, hp, rfl⟩ := h
  have hready : s.taskReady i = true := by simp only [taskReady, hi, hp]
  refine ⟨?_, ?_⟩
  · rintro ⟨x, hx, hq⟩
    obtain rfl := Option.some.inj (hi.symm.trans hx)
    simp [Task.isQueued, hp] at hq
  · have hread : ReadTurn origin s i r (s.readStep origin i r) := horderly.readTurn hi hready
    rw [Session.turn, hi]
    exact hread.begun (List.getElem?_eq_some_iff.mp hi).1

/-- Where the tasks are only told of a change, none takes its turn. -/
theorem Orderly.no_turn_of_told (h : s.Orderly) (woke : Bool)
    (ht : t.tasks = s.tasks.map fun x => if woke then x.wake else x) (i : Nat) : ¬ s.TakesTurn origin i t := by
  intro hturn
  obtain ⟨hnot, y, hy, hq⟩ := hturn.begins h
  rw [ht, List.getElem?_map] at hy
  obtain ⟨x, hx, rfl⟩ := Option.map_eq_some_iff.mp hy
  exact hnot ⟨x, hx, by cases woke <;> simpa using hq⟩

/-- Nor does one where nobody can take a step. -/
theorem IsSettled.no_turn (h : s.IsSettled) (i : Nat) : ¬ s.TakesTurn origin i t := by
  rintro ⟨r, hhead, hi, hp, -⟩
  exact h.not_canMove (.task i) ⟨hhead, by simp only [taskReady, hi, hp]⟩

end Session
end ReadAhead
