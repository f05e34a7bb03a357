import ReadAhead.Session.Frame

/-! The line of tasks that wait for their turn. Every task that is not over stands there once, the earlier
    before the later, and behind the first one all are still queued: nobody has begun out of turn. -/

namespace ReadAhead

namespace Task

/-- Whether the task waits for its turn. -/
def isQueued : Task → Bool
  | .read r => match r.phase with
    | .queued => true
    | _ => false
  | .close .queued => true
  | .close _ => false

@[simp] theorem isOver_wake (t : Task) : t.wake.isOver = t.isOver := by
  rcases t with ⟨len, position, wait, deadline, phase⟩ | c
  · cases phase <;> rfl
  · rfl

@[simp] theorem isQueued_wake (t : Task) : t.wake.isQueued = t.isQueued := by
  rcases t with ⟨len, position, wait, deadline, phase⟩ | c
  · cases phase <;> rfl
  · rfl

@[simp] theorem wake_wake (t : Task) : t.wake.wake = t.wake := by
  rcases t with ⟨len, position, wait, deadline, phase⟩ | c
  · cases phase <;> rfl
  · rfl

theorem wake_of_isOver {t : Task} (h : t.isOver = true) : t.wake = t := by
  rcases t with ⟨len, position, wait, deadline, phase⟩ | c
  · cases phase <;> first | rfl | cases h
  · rfl

theorem isOver_eq_false_of_isQueued {t : Task} (h : t.isQueued = true) : t.isOver = false := by
  rcases t with ⟨len, position, wait, deadline, phase⟩ | c
  · cases phase <;> first | rfl | cases h
  · cases c <;> first | rfl | cases h

end Task

namespace Session

/-- The tasks that are not over stand in line. -/
structure Lined (tasks : List Task) (turns : List Nat) : Prop where
  sorted : turns.Pairwise (· < ·)
  mem_iff : ∀ i, i ∈ turns ↔ ∃ t, tasks[i]? = some t ∧ t.isOver = false
  behind : ∀ i ∈ turns.tail, ∃ t, tasks[i]? = some t ∧ t.isQueued = true

variable {tasks : List Task} {turns : List Nat} {i : Nat} {task : Task}

theorem lined_nil : Lined [] [] := ⟨.nil, by simp, by simp⟩

theorem Lined.nodup (h : Lined tasks turns) : turns.Nodup := h.sorted.imp fun hlt => Nat.ne_of_lt hlt

theorem Lined.lt_length (h : Lined tasks turns) (hi : i ∈ turns) : i < tasks.length := by
  obtain ⟨t, ht, -⟩ := (h.mem_iff i).mp hi
  exact (List.getElem?_eq_some_iff.mp ht).1

/-- A task other than the one whose turn it is, is queued or over. -/
theorem Lined.other (h : Lined tasks turns) (hhead : turns.head? = some i) {j : Nat} {t : Task} (hj : tasks[j]? = some t)
    (hne : j ≠ i) : t.isOver = true ∨ t.isQueued = true := by
  cases hover : t.isOver with
  | true => exact Or.inl rfl
  | false =>
    right
    have hmem := (h.mem_iff j).mpr ⟨t, hj, hover⟩
    obtain ⟨x, rest, rfl⟩ : ∃ x rest, turns = x :: rest := by
      cases turns with
      | nil => cases hmem
      | cons x rest => exact ⟨x, rest, rfl⟩
    obtain rfl : x = i := by simpa using hhead
    rcases List.mem_cons.mp hmem with rfl | hrest
    · exact absurd rfl hne
    · obtain ⟨t', ht', hq⟩ := h.behind j hrest
      rw [hj] at ht'
      obtain rfl := Option.some.inj ht'
      exact hq

/-- The task that has begun and is not over has the turn. -/
theorem Lined.head (h : Lined tasks turns) (hi : tasks[i]? = some task) (hgo : task.isOver = false)
    (hq : task.isQueued = false) : turns.head? = some i := by
  have hmem := (h.mem_iff i).mpr ⟨task, hi, hgo⟩
  cases turns with
  | nil => cases hmem
  | cons x rest =>
    by_cases hx : i = x
    · rw [hx]
      rfl
    · rcases h.other (i := x) rfl hi hx with ho | ho
      · rw [hgo] at ho
        cases ho
      · rw [hq] at ho
        cases ho

theorem Lined.head_of_waiting (h : Lined tasks turns) {r : Reading} (hi : tasks[i]? = some (.read r)) {last : Nat}
    {woken : Bool} (hp : r.phase = .waiting last woken) : turns.head? = some i :=
  h.head hi (by simp [Task.isOver, hp]) (by simp [Task.isQueued, hp])

/-- The task whose turn it is was started before all others in line. -/
theorem Lined.head_le (h : Lined tasks turns) (hhead : turns.head? = some i) {j : Nat} (hj : j ∈ turns) : i ≤ j := by
  cases turns with
  | nil => cases hj
  | cons x rest =>
    obtain rfl : x = i := by simpa using hhead
    rcases List.mem_cons.mp hj with rfl | hrest
    · exact Nat.le_refl _
    · exact Nat.le_of_lt ((List.pairwise_cons.mp h.sorted).1 j hrest)

/-- As long as a task is not over, somebody who was started no later has the turn. -/
theorem Lined.exists_head (h : Lined tasks turns) (hi : tasks[i]? = some task) (hgo : task.isOver = false) :
    ∃ j x, turns.head? = some j ∧ j ≤ i ∧ tasks[j]? = some x ∧ x.isOver = false := by
  have hmem := (h.mem_iff i).mpr ⟨task, hi, hgo⟩
  cases hhead : turns.head? with
  | none => cases (List.head?_eq_none_iff.mp hhead) ▸ hmem
  | some j =>
    obtain ⟨x, hj, hx⟩ := (h.mem_iff j).mp (List.mem_of_mem_head? hhead)
    exact ⟨j, x, rfl, h.head_le hhead hmem, hj, hx⟩

theorem eq_of_getElem?_set {x : Task} (h : (tasks.set i task)[i]? = some x) : x = task := by
  obtain ⟨hlt, hget⟩ := List.getElem?_eq_some_iff.mp h
  rw [List.getElem_set_self] at hget
  exact hget.symm

/-- What holds of tasks that are over and of tasks that are queued, holds of all tasks if it holds of the one
    whose turn it is. -/
theorem Lined.all_set {P : Task → Prop} (h : Lined tasks turns) (hhead : turns.head? = some i)
    (hover : ∀ t, t.isOver = true → P t) (hqueued : ∀ t, t.isQueued = true → P t) (hnew : P task) :
    ∀ x ∈ tasks.set i task, P x := by
  intro x hx
  obtain ⟨j, hj⟩ := List.mem_iff_getElem?.mp hx
  by_cases hij : i = j
  · subst hij
    rwa [eq_of_getElem?_set hj]
  · rw [List.getElem?_set_ne hij] at hj
    rcases h.other hhead hj (Ne.symm hij) with ho | hq
    · exact hover x ho
    · exact hqueued x hq

theorem set_of_getElem? {α : Type} {l : List α} {a : α} (h : l[i]? = some a) : l.set i a = l := by
  obtain ⟨hlt, rfl⟩ := List.getElem?_eq_some_iff.mp h
  exact List.set_getElem_self hlt

/-- What a task and the one in its place have alike does not change in the list. -/
theorem map_set_of_eq {β : Type} {f : Task → β} {new : Task} (hi : tasks[i]? = some task) (hsame : f new = f task) :
    (tasks.set i new).map f = tasks.map f := by
  rw [List.map_set, hsame]
  refine set_of_getElem? ?_
  rw [List.getElem?_map, hi]
  rfl

theorem Lined.all {P : Task → Prop} (h : Lined tasks turns) (hhead : turns.head? = some i)
    (hover : ∀ t, t.isOver = true → P t) (hqueued : ∀ t, t.isQueued = true → P t) (hi : tasks[i]? = some task)
    (htask : P task) : ∀ x ∈ tasks, P x := by
  have hset := h.all_set hhead hover hqueued htask
  rwa [set_of_getElem? hi] at hset

theorem Lined.map {f : Task → Task} (h : Lined tasks turns) (hover : ∀ t, (f t).isOver = t.isOver)
    (hqueued : ∀ t, (f t).isQueued = t.isQueued) : Lined (tasks.map f) turns := by
  refine ⟨h.sorted, fun i => ?_, fun i hi => ?_⟩
  · rw [h.mem_iff i, List.getElem?_map]
    constructor
    · rintro ⟨t, ht, ho⟩
      exact ⟨f t, by rw [ht]; rfl, by rw [hover, ho]⟩
    · rintro ⟨t, ht, ho⟩
      obtain ⟨x, hx, rfl⟩ := Option.map_eq_some_iff.mp ht
      exact ⟨x, hx, by rw [← hover, ho]⟩
  · obtain ⟨t, ht, hq⟩ := h.behind i hi
    exact ⟨f t, by rw [List.getElem?_map, ht]; rfl, by rw [hqueued, hq]⟩

theorem Lined.wake (h : Lined tasks turns) (woke : Bool) :
    Lined (tasks.map fun t => if woke then t.wake else t) turns :=
  h.map (fun t => by cases woke <;> simp) fun t => by cases woke <;> simp

/-- The task whose turn it is moves on and is not over. -/
theorem Lined.set (h : Lined tasks turns) (hhead : turns.head? = some i) (hgo : task.isOver = false) :
    Lined (tasks.set i task) turns := by
  have hmem : i ∈ turns := List.mem_of_mem_head? hhead
  have hlt := h.lt_length hmem
  refine ⟨h.sorted, fun j => ?_, fun j hj => ?_⟩
  · by_cases hij : i = j
    · subst hij
      rw [List.getElem?_set_self hlt]
      exact ⟨fun _ => ⟨task, rfl, hgo⟩, fun _ => hmem⟩
    · rw [List.getElem?_set_ne hij]
      exact h.mem_iff j
  · have hne : i ≠ j := by
      obtain ⟨x, rest, rfl⟩ : ∃ x rest, turns = x :: rest := by
        cases turns with
        | nil => cases hmem
        | cons x rest => exact ⟨x, rest, rfl⟩
      obtain rfl : x = i := by simpa using hhead
      exact Nat.ne_of_lt ((List.pairwise_cons.mp h.sorted).1 j hj)
    rw [List.getElem?_set_ne hne]
    exact h.behind j hj

/-- A task in line is over and leaves the line. -/
theorem Lined.erase (h : Lined tasks turns) (hmem : i ∈ turns) (hover : task.isOver = true) :
    Lined (tasks.set i task) (turns.erase i) := by
  have hlt := h.lt_length hmem
  refine ⟨h.sorted.sublist List.erase_sublist, fun j => ?_, fun j hj => ?_⟩
  · rw [h.nodup.mem_erase_iff]
    by_cases hij : i = j
    · subst hij
      rw [List.getElem?_set_self hlt]
      constructor
      · rintro ⟨hne, -⟩
        exact absurd rfl hne
      · rintro ⟨t, ht, ho⟩
        obtain rfl := Option.some.inj ht
        rw [hover] at ho
        cases ho
    · rw [List.getElem?_set_ne hij, h.mem_iff j]
      exact ⟨fun hj => hj.2, fun hj => ⟨fun he => hij he.symm, hj⟩⟩
  · cases turns with
    | nil => cases hmem
    | cons x rest =>
      have hnodup := List.nodup_cons.mp h.nodup
      have hboth : j ∈ rest ∧ i ≠ j := by
        -- Whether the first in line leaves or another, who stands behind the first then stood there before.
        by_cases hx : x = i
        · subst hx
          rw [List.erase_cons_head] at hj
          have hrest := List.mem_of_mem_tail hj
          exact ⟨hrest, fun he => hnodup.1 (he ▸ hrest)⟩
        · rw [List.erase_cons_tail (by simpa using hx)] at hj
          have herase := (hnodup.2.mem_erase_iff).mp hj
          exact ⟨herase.2, fun he => herase.1 he.symm⟩
      rw [List.getElem?_set_ne hboth.2]
      exact h.behind j hboth.1

theorem getElem?_push {new t : Task} :
    (tasks ++ [new])[i]? = some t ↔ tasks[i]? = some t ∨ (i = tasks.length ∧ new = t) := by
  rw [List.getElem?_append]
  constructor
  · intro h
    split at h
    · exact Or.inl h
    · obtain ⟨hlt, ht⟩ := List.getElem?_eq_some_iff.mp h
      rw [List.length_singleton] at hlt
      exact Or.inr ⟨by omega, by simpa using ht⟩
  · rintro (h | ⟨rfl, rfl⟩)
    · rw [if_pos (List.getElem?_eq_some_iff.mp h).1, h]
    · simp

theorem Lined.push_over (h : Lined tasks turns) (hover : task.isOver = true) : Lined (tasks ++ [task]) turns := by
  refine ⟨h.sorted, fun i => ?_, fun i hi => ?_⟩
  · rw [h.mem_iff i]
    constructor
    · rintro ⟨t, ht, ho⟩
      exact ⟨t, getElem?_push.mpr (Or.inl ht), ho⟩
    · rintro ⟨t, ht, ho⟩
      rcases getElem?_push.mp ht with hold | ⟨-, rfl⟩
      · exact ⟨t, hold, ho⟩
      · rw [hover] at ho
        cases ho
  · obtain ⟨t, ht, hq⟩ := h.behind i hi
    exact ⟨t, getElem?_push.mpr (Or.inl ht), hq⟩

theorem Lined.push (h : Lined tasks turns) (hq : task.isQueued = true) :
    Lined (tasks ++ [task]) (turns ++ [tasks.length]) := by
  have hgo := Task.isOver_eq_false_of_isQueued hq
  refine ⟨?_, fun i => ?_, fun i hi => ?_⟩
  · refine List.pairwise_append.mpr ⟨h.sorted, List.pairwise_singleton _ _, fun a ha b hb => ?_⟩
    obtain rfl := List.mem_singleton.mp hb
    exact h.lt_length ha
  · rw [List.mem_append, h.mem_iff i, List.mem_singleton]
    constructor
    · rintro (⟨t, ht, ho⟩ | rfl)
      · exact ⟨t, getElem?_push.mpr (Or.inl ht), ho⟩
      · exact ⟨task, getElem?_push.mpr (Or.inr ⟨rfl, rfl⟩), hgo⟩
    · rintro ⟨t, ht, ho⟩
      rcases getElem?_push.mp ht with hold | ⟨hi, -⟩
      · exact Or.inl ⟨t, hold, ho⟩
      · exact Or.inr hi
  · have hmem : i ∈ turns.tail ∨ i = tasks.length := by
      cases turns with
      | nil => cases hi
      | cons x rest =>
        rw [List.cons_append, List.tail_cons, List.mem_append, List.mem_singleton] at hi
        exact hi
    rcases hmem with hmem | rfl
    · obtain ⟨t, ht, hq⟩ := h.behind i hmem
      exact ⟨t, getElem?_push.mpr (Or.inl ht), hq⟩
    · exact ⟨task, getElem?_push.mpr (Or.inr ⟨rfl, rfl⟩), hq⟩

end Session
end ReadAhead
