import Mathlib.Logic.Relation
import ReadAhead.Proofs.Session.Line
import ReadAhead.Session.Command

/-! The steps of a session. Whoever can take a step may take it, in any order; time moves on when nobody
    can, but never past a moment that somebody waits for; and the owner acts when nobody can take a step.
    Whatever a session goes through while commands are carried out is reached by such steps
    (`reaches_performAll`), so what they keep holds of every run. -/

namespace ReadAhead
namespace Session
variable {σ : Type} {origin : Origin σ} {s t : Session σ} {i : Nat}

/-- Whether `m` can take a step; of the tasks, only the one whose turn it is. -/
def CanMove (s : Session σ) : Mover → Prop
  | .feed k => s.feedReady k = true
  | .task i => s.turns.head? = some i ∧ s.taskReady i = true
  | .stream => s.isForsaken = true

/-- What the owner does at once. -/
inductive Act
  | start (len position : Nat) (timeout : Option Duration)
  | abandon (i : Nat)
  | close
  | letGo

def act (a : Act) (s : Session σ) : Session σ :=
  match a with
  | .start len position timeout => s.start len position timeout
  | .abandon i => (s.abandon i).2
  | .close => s.startClose
  | .letGo => s.letGo

/-- One step of a session. -/
inductive Step (origin : Origin σ) (s : Session σ) : Session σ → Prop
  | move {m : Mover} (h : s.CanMove m) : Step origin s (s.move origin m)
  | wait {due : Nat} (hrest : s.IsSettled) (hle : s.now ≤ due) (hfirst : ∀ x ∈ s.timers, s.now < x → due ≤ x) :
    Step origin s { s with now := due }
  | act (a : Act) (hrest : s.IsSettled) : Step origin s (s.act a)

abbrev Reaches (origin : Origin σ) : Session σ → Session σ → Prop := Relation.ReflTransGen (Step origin)

/-! ### Who can take a step -/

theorem canMove_of_next? {m : Mover} (h : s.next? = some m) : s.CanMove m := by
  cases m with
  | feed k => exact feedReady_of_next? h
  | task i =>
    refine ⟨?_, taskReady_of_next? h⟩
    unfold next? at h
    split at h
    · cases h
    · split at h
      · rename_i j hj
        obtain rfl : j = i := by simpa using h
        exact (Option.filter_eq_some_iff.mp hj).1
      · split at h <;> cases h
  | stream => exact isForsaken_of_next? h

theorem IsSettled.not_canMove (h : s.IsSettled) (m : Mover) : ¬ s.CanMove m := by
  intro hm
  unfold IsSettled next? at h
  split at h
  · cases h
  · rename_i hfeeds
    split at h
    · cases h
    · rename_i htask
      cases m with
      | feed k =>
        simp only [CanMove, feedReady] at hm
        split at hm
        · rename_i f hf
          have hidle := List.findIdx?_eq_none_iff.mp hfeeds f (List.mem_of_getElem? hf)
          rw [hm] at hidle
          cases hidle
        · cases hm
      | task i =>
        obtain ⟨hhead, hready⟩ := hm
        rw [hhead, Option.filter_some, hready] at htask
        cases htask
      | stream =>
        simp only [CanMove] at hm
        rw [hm] at h
        cases h

theorem lt_of_nextDue? {due : Nat} (h : s.nextDue? = some due) :
    s.now < due ∧ ∀ x ∈ s.timers, s.now < x → due ≤ x := by
  obtain ⟨hmem, hmin⟩ := List.min?_eq_some_iff.mp h
  obtain ⟨-, hlt⟩ := List.mem_filter.mp hmem
  exact ⟨by simpa using hlt, fun x hx hnow => hmin x (List.mem_filter.mpr ⟨hx, by simpa using hnow⟩)⟩

theorem nextDue?_eq_none (h : s.nextDue? = none) : ∀ x ∈ s.timers, ¬ s.now < x := by
  intro x hx hnow
  have hnil := List.min?_eq_none_iff.mp h
  have hin : x ∈ s.timers.filter (s.now < ·) := List.mem_filter.mpr ⟨hx, by simpa using hnow⟩
  rw [hnil] at hin
  cases hin

theorem isSettled_of_event? {limit : Option Nat} (h : s.event? limit = none) : s.IsSettled := by
  unfold event? at h
  split at h
  · cases h
  · assumption

/-- What can happen next up to the time `limit`: somebody takes a step or, when nobody can, time moves to the first moment
    that somebody waits for. -/
inductive Occurs (limit : Option Nat) (s : Session σ) : Event → Prop
  | step {m : Mover} (hm : s.next? = some m) : Occurs limit s (.step m)
  | wait {due : Nat} (hrest : s.IsSettled) (hahead : s.now < due) (hfirst : ∀ x ∈ s.timers, s.now < x → due ≤ x)
    (hlimit : ∀ time ∈ limit, due ≤ time) : Occurs limit s (.wait due)

theorem occurs {limit : Option Nat} {e : Event} (h : s.event? limit = some e) : Occurs limit s e := by
  unfold event? at h
  split at h
  · rename_i m hm
    obtain rfl := Option.some.inj h
    exact .step hm
  · rename_i hrest
    obtain ⟨due, hdue, rfl⟩ := Option.map_eq_some_iff.mp h
    obtain ⟨hdue, hlimit⟩ := Option.filter_eq_some_iff.mp hdue
    obtain ⟨hahead, hfirst⟩ := lt_of_nextDue? hdue
    refine .wait hrest hahead hfirst fun time htime => ?_
    obtain rfl := Option.mem_def.mp htime
    simpa using hlimit

theorem step_happen {limit : Option Nat} {e : Event} (h : s.event? limit = some e) : Step origin s (s.happen origin e) := by
  cases occurs h with
  | step hm => exact .move (canMove_of_next? hm)
  | wait hrest hahead hfirst => exact .wait hrest (Nat.le_of_lt hahead) hfirst

/-! ### What a step leaves as it is -/

/-- `t` is the same stream as `s` at the same time, held and closed as before, and at most task `i` is another:
    the rest were told of a change or not. -/
structure Spares (s t : Session σ) (i : Nat) : Prop where
  stream : t.stream = s.stream
  now : t.now = s.now
  held : t.held = s.held
  closed : t.closed = s.closed
  others : ∀ j, j ≠ i → ∃ woke : Bool, t.tasks[j]? = s.tasks[j]?.map fun x => if woke then x.wake else x

theorem spares_of_tasks (hstream : t.stream = s.stream) (hnow : t.now = s.now) (hheld : t.held = s.held)
    (hclosed : t.closed = s.closed) (htasks : ∀ j, j ≠ i → t.tasks[j]? = s.tasks[j]?) : Spares s t i :=
  ⟨hstream, hnow, hheld, hclosed, fun j hj => ⟨false, by rw [htasks j hj]; simp⟩⟩

theorem Spares.refl (s : Session σ) (i : Nat) : Spares s s i := spares_of_tasks rfl rfl rfl rfl fun _ _ => rfl

theorem Spares.trans {u : Session σ} (h : Spares s t i) (h' : Spares t u i) : Spares s u i := by
  refine ⟨h'.stream.trans h.stream, h'.now.trans h.now, h'.held.trans h.held, h'.closed.trans h.closed, fun j hj => ?_⟩
  obtain ⟨first, hfirst⟩ := h.others j hj
  obtain ⟨second, hsecond⟩ := h'.others j hj
  refine ⟨first || second, ?_⟩
  rw [hsecond, hfirst, Option.map_map]
  congr 1
  funext x
  cases first <;> cases second <;> simp

theorem Spares.over (h : Spares s t i) {j : Nat} {task : Task} (hj : j ≠ i) (hs : s.tasks[j]? = some task)
    (hover : task.isOver = true) : t.tasks[j]? = some task := by
  obtain ⟨woke, ht⟩ := h.others j hj
  rw [ht, hs]
  cases woke <;> simp [Task.wake_of_isOver hover]

theorem spares_setRing (s : Session σ) (ring : Ring) (woke : Bool) (i : Nat) : Spares s (s.setRing ring woke) i := by
  refine ⟨by simp, by simp, by simp, by simp, fun j _ => ⟨woke, ?_⟩⟩
  rw [tasks_setRing, List.getElem?_map]

theorem spares_setTask (s : Session σ) (i : Nat) (task : Task) : Spares s (s.setTask i task) i :=
  spares_of_tasks rfl rfl rfl rfl fun j hj => by rw [tasks_setTask, List.getElem?_set_ne (Ne.symm hj)]

theorem spares_endTask (s : Session σ) (i : Nat) (task : Task) : Spares s (s.endTask i task) i :=
  spares_of_tasks rfl rfl rfl rfl fun j hj => by rw [tasks_endTask, List.getElem?_set_ne (Ne.symm hj)]

theorem spares_note (s : Session σ) (mark : Mark) (i : Nat) : Spares s (s.note mark) i :=
  spares_of_tasks (by simp) (by simp) (by simp) (by simp) fun j _ => by simp

theorem spares_dismiss (s : Session σ) (old i : Nat) : Spares s (s.dismiss old) i :=
  spares_of_tasks rfl rfl rfl rfl fun _ _ => rfl

theorem spares_serve (s : Session σ) (i : Nat) (r : Reading) : Spares s (s.serve i r) i := by
  have hring := spares_setRing s (s.ring.readAt r.len r.position).ring (s.ring.readAt r.len r.position).woke i
  unfold serve
  simp only
  split
  · exact hring.trans (spares_endTask _ _ _)
  · exact (hring.trans (spares_note _ _ _)).trans (spares_endTask _ _ _)

theorem spares_look (s : Session σ) (i : Nat) (r : Reading) (last : Nat) : Spares s (s.look i r last) i := by
  unfold look
  split
  · exact spares_endTask _ _ _
  · split
    · exact spares_endTask _ _ _
    · exact spares_serve _ _ _
    · split
      · exact spares_serve _ _ _
      · exact spares_endTask _ _ _
    · simp only
      split
      · exact (spares_note _ _ _).trans (spares_endTask _ _ _)
      · exact (spares_note _ _ _).trans (spares_setTask _ _ _)

theorem spares_restart (origin : Origin σ) (s : Session σ) (i : Nat) (r : Reading) :
    Spares s (s.restart origin i r) i := by
  have hcount : ∀ u : Session σ, Spares u u.countAttempt i := fun u => spares_of_tasks rfl rfl rfl rfl fun _ _ => rfl
  have hjoin : ∀ (u : Session σ) (source : σ) (start : Nat), Spares u (u.install source start) i :=
    fun u source start => spares_of_tasks rfl rfl rfl rfl fun _ _ => rfl
  have hring := spares_setRing s (s.ring.reset (r.position - s.stream.tier.margin)).ring
    (s.ring.reset (r.position - s.stream.tier.margin)).woke i
  unfold restart
  simp only
  refine hring.trans ?_
  split
  · exact spares_endTask _ _ _
  · unfold connect
    split
    · exact ((hcount _).trans (spares_note _ _ _)).trans (spares_endTask _ _ _)
    · exact (((hcount _).trans (hjoin _ _ _)).trans (spares_note _ _ _)).trans (spares_look _ _ _ _)

theorem spares_readStep (origin : Origin σ) (s : Session σ) (i : Nat) (r : Reading) :
    Spares s (s.readStep origin i r) i := by
  unfold readStep
  split
  · split
    · exact spares_endTask _ _ _
    · split
      · split
        · exact (spares_dismiss _ _ _).trans (spares_setTask _ _ _)
        · exact spares_restart _ _ _ _
      · exact spares_look _ _ _ _
  · split
    · exact spares_restart _ _ _ _
    · exact Spares.refl _ _
  · split
    · exact spares_look _ _ _ _
    · split
      · split <;> exact spares_endTask _ _ _
      · exact Spares.refl _ _
  · exact Spares.refl _ _
  · exact Spares.refl _ _

theorem spares_closeStep (s : Session σ) (i : Nat) (c : Closing) : Spares s (s.closeStep i c) i := by
  unfold closeStep
  split
  · split
    · exact (spares_dismiss _ _ _).trans (spares_setTask _ _ _)
    · exact spares_endTask _ _ _
  · split
    · exact spares_endTask _ _ _
    · exact Spares.refl _ _
  · exact Spares.refl _ _

theorem spares_turn (origin : Origin σ) (s : Session σ) (i : Nat) : Spares s (s.turn origin i) i := by
  unfold turn
  split
  · exact spares_readStep _ _ _ _
  · exact spares_closeStep _ _ _
  · exact Spares.refl _ _

theorem spares_feedStep (origin : Origin σ) (s : Session σ) (k i : Nat) : Spares s (s.feedStep origin k) i := by
  cases hk : s.feeds[k]? with
  | none =>
    unfold feedStep
    rw [hk]
    exact Spares.refl _ _
  | some f =>
    have hring := spares_setRing s (f.advance origin s.now s.ring).ring (f.advance origin s.now s.ring).woke i
    rw [feedStep_eq hk]
    refine hring.trans ?_
    exact spares_of_tasks rfl rfl rfl rfl fun _ _ => rfl

theorem spares_expire (s : Session σ) (i : Nat) : Spares s s.expire i := by
  refine (spares_setRing s s.ring.close.ring s.ring.close.woke i).trans ?_
  exact spares_of_tasks rfl rfl rfl rfl fun _ _ => rfl

/-- The task, if any, that a mover does not spare. -/
theorem spares_move (origin : Origin σ) (s : Session σ) (m : Mover) : ∃ i, Spares s (s.move origin m) i := by
  cases m with
  | feed k => exact ⟨0, spares_feedStep origin s k 0⟩
  | task i => exact ⟨i, spares_turn origin s i⟩
  | stream => exact ⟨0, spares_expire s 0⟩

theorem exists_spares_move (origin : Origin σ) (s : Session σ) {m : Mover} {j : Nat} (hne : m ≠ .task j) :
    ∃ i, j ≠ i ∧ Spares s (s.move origin m) i := by
  cases m with
  | feed k => exact ⟨j + 1, by omega, spares_feedStep origin s k _⟩
  | task i =>
    refine ⟨i, ?_, spares_turn origin s i⟩
    rintro rfl
    exact hne rfl
  | stream => exact ⟨j + 1, by omega, spares_expire s _⟩

theorem now_move (origin : Origin σ) (s : Session σ) (m : Mover) : (s.move origin m).now = s.now :=
  (spares_move origin s m).choose_spec.now

theorem held_move (origin : Origin σ) (s : Session σ) (m : Mover) : (s.move origin m).held = s.held :=
  (spares_move origin s m).choose_spec.held

theorem isOver_eq_false_of_taskReady {task : Task} (hi : s.tasks[i]? = some task) (h : s.taskReady i = true) :
    task.isOver = false := by
  unfold taskReady at h
  rw [hi] at h
  rcases task with ⟨len, position, wait, deadline, phase⟩ | c
  · cases phase <;> first | rfl | cases h
  · cases c <;> first | rfl | cases h

/-- The owner changes no task that is over. -/
theorem over_act (a : Act) {j : Nat} {task : Task} (hj : s.tasks[j]? = some task) (hover : task.isOver = true) :
    (s.act a).tasks[j]? = some task := by
  have hpush : ∀ new : Task, (s.tasks ++ [new])[j]? = some task := fun new => by
    rw [List.getElem?_append_left (List.getElem?_eq_some_iff.mp hj).1, hj]
  cases a with
  | start len position timeout =>
    simp only [act, start]
    split
    · exact hpush _
    · split
      · exact hpush _
      · split
        · exact hpush _
        · exact hpush _
  | abandon i =>
    simp only [act, abandon]
    split
    · rename_i r hi
      split
      · exact hj
      · rename_i hr
        have hne : i ≠ j := by
          rintro rfl
          rw [hj] at hi
          obtain rfl := Option.some.inj hi
          exact hr hover
        rw [tasks_endTask, List.getElem?_set_ne hne, hj]
    · exact hj
  | close =>
    simp only [act, startClose]
    split
    · exact hpush _
    · simp only
      have hring := (spares_setRing s s.ring.close.ring s.ring.close.woke (j + 1)).over (by omega) hj hover
      rw [tasks_cancelAll, List.getElem?_append_left (List.getElem?_eq_some_iff.mp hring).1, hring]
  | letGo => exact hj

/-- Nor does a task or feed that takes a step. -/
theorem over_move {m : Mover} (hm : s.CanMove m) {j : Nat} {task : Task} (hj : s.tasks[j]? = some task)
    (hover : task.isOver = true) : (s.move origin m).tasks[j]? = some task := by
  by_cases hmj : m = .task j
  · subst hmj
    rw [isOver_eq_false_of_taskReady hj hm.2] at hover
    cases hover
  · obtain ⟨i, hji, hspares⟩ := exists_spares_move origin s hmj
    exact hspares.over hji hj hover

theorem Step.over (h : Step origin s t) {j : Nat} {task : Task} (hj : s.tasks[j]? = some task)
    (hover : task.isOver = true) : t.tasks[j]? = some task := by
  cases h with
  | move hm => exact over_move hm hj hover
  | wait => exact hj
  | act a => exact over_act a hj hover

theorem over_of_reaches (h : Reaches origin s t) {j : Nat} {task : Task} (hj : s.tasks[j]? = some task)
    (hover : task.isOver = true) : t.tasks[j]? = some task := by
  induction h with
  | refl => exact hj
  | tail _ hstep ih => exact hstep.over ih hover

theorem stream_act (a : Act) (s : Session σ) : (s.act a).stream = s.stream := by
  cases a with
  | start len position timeout =>
    simp only [act, start]
    repeat' split
    all_goals rfl
  | abandon i =>
    simp only [act, abandon]
    repeat' split
    all_goals rfl
  | close =>
    simp only [act, startClose]
    split
    · rfl
    · simp
  | letGo => rfl

/-- Only the owner can give up the stream. -/
theorem held_act {a : Act} (hkeep : a ≠ .letGo) (s : Session σ) : (s.act a).held = s.held := by
  cases a with
  | start len position timeout =>
    simp only [act, start]
    repeat' split
    all_goals rfl
  | abandon i =>
    simp only [act, abandon]
    repeat' split
    all_goals rfl
  | close =>
    simp only [act, startClose]
    split
    · rfl
    · simp
  | letGo => exact absurd rfl hkeep

/-- A stream that is held was held before. -/
theorem Step.held (h : Step origin s t) (hheld : t.held = true) : s.held = true := by
  cases h with
  | @move m _ => rwa [held_move] at hheld
  | wait => exact hheld
  | act a =>
    by_cases hkeep : a = .letGo
    · subst hkeep
      cases hheld
    · rwa [held_act hkeep] at hheld

theorem Step.stream (h : Step origin s t) : t.stream = s.stream := by
  cases h with
  | @move m _ => exact (spares_move origin s m).choose_spec.stream
  | wait => rfl
  | act a => exact stream_act a s

/-- Where a task that is over stays, its result does. -/
theorem result?_of_over (h : ∀ task, s.tasks[i]? = some task → task.isOver = true → t.tasks[i]? = some task)
    {result : Except Failure Delivery} (hi : s.result? i = some result) : t.result? i = some result := by
  unfold Session.result? at hi
  split at hi
  · rename_i r hr
    split at hi
    · rename_i hp
      have hover := h _ hr (by simp [Task.isOver, hp])
      obtain rfl := Option.some.inj hi
      simp only [Session.result?, hover, hp]
    · cases hi
  · cases hi

theorem Step.result? (h : Step origin s t) {result : Except Failure Delivery} (hi : s.result? i = some result) :
    t.result? i = some result :=
  result?_of_over (fun _ => h.over) hi

/-! ### Runs -/

theorem reaches_run (origin : Origin σ) (limit : Option Nat) (enough : Session σ → Bool) (s : Session σ) :
    Reaches origin s (s.run origin limit enough) := by
  fun_induction run origin limit enough s with
  | case1 s henough => exact .refl
  | case2 s henough hnone => exact .refl
  | case3 s henough e he ih => exact .head (step_happen he) ih

/-- A run ends when there is enough, or when nothing happens any more. -/
theorem run_ends (origin : Origin σ) (limit : Option Nat) (enough : Session σ → Bool) (s : Session σ) :
    enough (s.run origin limit enough) = true ∨ (s.run origin limit enough).event? limit = none := by
  fun_induction run origin limit enough s with
  | case1 s henough => exact Or.inl henough
  | case2 s henough hnone => exact Or.inr hnone
  | case3 s henough e he ih => exact ih

theorem run_of_enough {limit : Option Nat} {enough : Session σ → Bool} (henough : enough s = true) :
    s.run origin limit enough = s := by
  rw [run, if_pos henough]

theorem run_of_event? {limit : Option Nat} {enough : Session σ → Bool} {e : Event} (hmore : enough s = false)
    (he : s.event? limit = some e) : s.run origin limit enough = (s.happen origin e).run origin limit enough := by
  rw [run, hmore]
  split
  · cases ‹false = true›
  · split
    · rename_i hnone
      cases hnone.symm.trans he
    · rename_i e' he'
      obtain rfl := Option.some.inj (he'.symm.trans he)
      rfl

/-- Where nothing happens any more, a run ends. -/
theorem run_of_event?_eq_none {limit : Option Nat} {enough : Session σ → Bool} (hnone : s.event? limit = none) :
    s.run origin limit enough = s := by
  rw [run]
  split
  · rfl
  · split
    · rfl
    · rename_i e he
      cases hnone.symm.trans he

theorem isSettled_run (origin : Origin σ) (limit : Option Nat) (s : Session σ) :
    (s.run origin limit fun _ => false).event? limit = none :=
  (run_ends origin limit (fun _ => false) s).resolve_left (by simp)

/-- Time does not go back, nor past the limit. -/
theorem now_run (origin : Origin σ) (time : Nat) (enough : Session σ → Bool) (s : Session σ) :
    s.now ≤ (s.run origin (some time) enough).now ∧ (s.run origin (some time) enough).now ≤ max s.now time := by
  generalize hl : some time = limit
  fun_induction run origin limit enough s with
  | case1 s henough => omega
  | case2 s henough hnone => omega
  | case3 s henough e he ih =>
    subst hl
    cases occurs he with
    | step hm =>
      rw [happen, now_move] at ih
      exact ih
    | wait _ hahead _ hlimit =>
      have hle := hlimit time rfl
      simp only [happen] at ih ⊢
      omega

theorem held_run (origin : Origin σ) (limit : Option Nat) (enough : Session σ → Bool) (s : Session σ) :
    (s.run origin limit enough).held = s.held := by
  fun_induction run origin limit enough s with
  | case1 s henough => rfl
  | case2 s henough hnone => rfl
  | case3 s henough e he ih =>
    rw [ih]
    cases e with
    | step m => exact held_move origin s m
    | wait due => rfl

/-- The session after the events of a run, `n` of them at most. -/
def runFor (origin : Origin σ) (limit : Option Nat) (enough : Session σ → Bool) : Nat → Session σ → Session σ
  | 0, s => s
  | n + 1, s =>
    if enough s then s
    else match s.event? limit with
      | none => s
      | some e => runFor origin limit enough n (s.happen origin e)

/-- A run that ends after `n` events at most, can be computed event by event. -/
theorem run_eq_runFor (origin : Origin σ) (limit : Option Nat) (enough : Session σ → Bool) (n : Nat) (s : Session σ)
    (h : enough (s.runFor origin limit enough n) = true ∨ (s.runFor origin limit enough n).event? limit = none) :
    s.run origin limit enough = s.runFor origin limit enough n := by
  induction n generalizing s with
  | zero =>
    simp only [runFor] at h ⊢
    rw [run]
    rcases h with h | h
    · rw [if_pos h]
    · split
      · rfl
      · split
        · rfl
        · rename_i e he
          rw [he] at h
          cases h
  | succ n ih =>
    rw [run]
    simp only [runFor] at h ⊢
    split
    · rfl
    · rename_i henough
      rw [if_neg henough] at h
      split
      · rename_i he
        rw [he]
      · rename_i e he
        rw [he] at h ⊢
        exact ih _ h

theorem isSettled_settle (origin : Origin σ) (s : Session σ) : (s.settle origin).IsSettled :=
  isSettled_of_event? (isSettled_run origin (some s.now) s)

theorem reaches_settle (origin : Origin σ) (s : Session σ) : Reaches origin s (s.settle origin) := reaches_run _ _ _ _

theorem reaches_await (origin : Origin σ) (i : Nat) (s : Session σ) : Reaches origin s (s.await origin i) :=
  (reaches_run _ _ _ _).trans (reaches_settle _ _)

/-- Once a session has run up to a time, nothing is due up to then any more. -/
theorem le_of_timer_run (origin : Origin σ) (time : Nat) (s : Session σ) {x : Nat}
    (hx : x ∈ (s.run origin (some time) fun _ => false).timers)
    (hahead : (s.run origin (some time) fun _ => false).now < x) : max s.now time ≤ x := by
  have hend := isSettled_run origin (some time) s
  obtain ⟨hlow, hhigh⟩ := now_run origin time (fun _ => false) s
  generalize s.run origin (some time) (fun _ => false) = u at hend hlow hhigh hx hahead
  have hrest : u.next? = none := isSettled_of_event? hend
  simp only [event?, hrest, Option.map_eq_none_iff] at hend
  cases hdue : u.nextDue? with
  | none => exact absurd hahead (nextDue?_eq_none hdue x hx)
  | some due =>
    have hle := (lt_of_nextDue? hdue).2 x hx hahead
    simp only [hdue, Option.filter_some, Option.all_some, decide_eq_true_eq] at hend
    have htime : ¬ due ≤ time := fun h => by simp [h] at hend
    omega

theorem reaches_passUntil (origin : Origin σ) (time : Nat) (s : Session σ) :
    Reaches origin s (s.passUntil origin time) := by
  have hrest := isSettled_of_event? (isSettled_run origin (some time) s)
  exact (reaches_run origin (some time) (fun _ => false) s).tail
    (.wait hrest (now_run origin time (fun _ => false) s).2 fun x => le_of_timer_run origin time s)

/-- What the owner does at once is a step, and waiting for it is a run. -/
theorem reaches_perform (origin : Origin σ) (c : Command) (hrest : s.IsSettled) :
    Reaches origin s (s.perform origin c) := by
  refine Relation.ReflTransGen.trans ?_ (reaches_settle origin _)
  cases c with
  | read len position timeout => exact .head (.act (.start len position timeout) hrest) (reaches_await _ _ _)
  | start len position timeout => exact .single (.act (.start len position timeout) hrest)
  | join i => exact reaches_await _ _ _
  | abandon i => exact .single (.act (.abandon i) hrest)
  | close => exact .head (.act .close hrest) (reaches_await _ _ _)
  | letGo => exact .single (.act .letGo hrest)
  | pass millis => exact reaches_passUntil _ _ _

theorem isSettled_perform (origin : Origin σ) (c : Command) (s : Session σ) : (s.perform origin c).IsSettled :=
  isSettled_settle _ _

theorem held_perform (origin : Origin σ) {c : Command} (hkeep : c ≠ .letGo) (s : Session σ) :
    (s.perform origin c).held = s.held := by
  rw [perform, settle, held_run]
  cases c with
  | read len position timeout =>
    rw [carryOut, read, await, settle, held_run, held_run]
    exact held_act (a := .start len position timeout) (by simp) s
  | start len position timeout => exact held_act (a := .start len position timeout) (by simp) s
  | join i => rw [carryOut, await, settle, held_run, held_run]
  | abandon i => exact held_act (a := .abandon i) (by simp) s
  | close =>
    rw [carryOut, close, await, settle, held_run, held_run]
    exact held_act (a := .close) (by simp) s
  | letGo => exact absurd rfl hkeep
  | pass millis => exact held_run _ _ _ _

theorem held_performAll (origin : Origin σ) {cs : List Command} (hkeep : .letGo ∉ cs) (s : Session σ) :
    (s.performAll origin cs).held = s.held := by
  induction cs generalizing s with
  | nil => rfl
  | cons c cs ih =>
    rw [List.mem_cons, not_or] at hkeep
    obtain ⟨hc, hcs⟩ := hkeep
    exact (ih hcs (s.perform origin c)).trans (held_perform origin (Ne.symm hc) s)

/-- All that a session goes through while commands are carried out is reached by steps. -/
theorem reaches_performAll (origin : Origin σ) (cs : List Command) (hrest : s.IsSettled) :
    Reaches origin s (s.performAll origin cs) ∧ (s.performAll origin cs).IsSettled := by
  induction cs generalizing s with
  | nil => exact ⟨.refl, hrest⟩
  | cons c cs ih =>
    obtain ⟨hreach, hend⟩ := ih (isSettled_perform origin c s)
    exact ⟨(reaches_perform origin c hrest).trans hreach, hend⟩

theorem isSettled_onStorage (stream : Stream) (storage : ByteArray) (now : Nat) :
    (onStorage (σ := σ) stream storage now).IsSettled := by
  simp [IsSettled, next?, onStorage, isForsaken]

/-- A result that is there was given by a step. -/
theorem exists_step_of_result? (h : Reaches origin s t) {result : Except Failure Delivery} (hs : s.result? i = none)
    (ht : t.result? i = some result) :
    ∃ u v, Reaches origin s u ∧ Step origin u v ∧ Reaches origin v t ∧ u.result? i = none ∧ v.result? i = some result := by
  induction h with
  | refl =>
    rw [hs] at ht
    cases ht
  | @tail u v hreach hstep ih =>
    cases hu : u.result? i with
    | none => exact ⟨u, v, hreach, hstep, .refl, hu, ht⟩
    | some other =>
      have hsame := hstep.result? hu
      rw [ht] at hsame
      obtain rfl := Option.some.inj hsame
      obtain ⟨x, y, hx, hxy, hy, hxn, hyr⟩ := ih hu
      exact ⟨x, y, hx, hxy, hy.tail hstep, hxn, hyr⟩

end Session
end ReadAhead
