import ReadAhead.Feed.Effort
import ReadAhead.Session.Frame
import ReadAhead.Session.Tick
import ReadAhead.Total

/-! A session left alone comes to rest. Every read and closing goes through its phases once, a feed is
    started only by a read that moves on, a feed stops for good, and one that does not stop uses up the
    room in the ring. What is left to do is measured by what the tasks owe, then by the feeds at work,
    then by the work left to these, then by the reads woken for nothing, then by the moments still ahead.
    Every step and every move of time makes it less (`effort_happen`). -/

namespace ReadAhead

/-! ### What is left to do -/

namespace Task

/-- The phases that lie before a task. -/
def effort : Task → Nat
  | .read r => match r.phase with
    | .queued => 3
    | .replacing _ => 2
    | .waiting _ _ => 1
    | .done _ | .abandoned => 0
  | .close .queued => 2
  | .close (.draining _) => 1
  | .close .done => 0

/-- Whether a waiting read was told of a change that it has not looked at. -/
def isWoken : Task → Bool
  | .read r => match r.phase with
    | .waiting _ woken => woken
    | _ => false
  | .close _ => false

@[simp] theorem effort_wake (t : Task) : t.wake.effort = t.effort := by
  rcases t with ⟨len, position, wait, deadline, phase⟩ | c
  · cases phase <;> rfl
  · rfl

end Task

namespace Session
variable {σ : Type}

/-- The phases before the tasks, and before the end of the ring. -/
def owed (s : Session σ) : Nat := total (s.tasks.map Task.effort) + if s.ring.isClosed then 0 else 1

/-- The feeds at work. -/
def running (s : Session σ) : Nat := s.feeds.countP fun f => !f.isStopped

/-- The work left to the feeds. -/
def pouring (s : Session σ) : Nat := total (s.feeds.map (Feed.effort s.ring.free))

/-- The reads woken that have not looked since. -/
def woken (s : Session σ) : Nat := s.tasks.countP Task.isWoken

/-- The moments ahead that somebody waits for. -/
def ahead (s : Session σ) : Nat := s.timers.countP (s.now < ·)

/-- All that is left to do, the weightier first. -/
def effort (s : Session σ) : Nat × Nat × Nat × Nat × Nat :=
  (s.owed, s.running, s.pouring, s.woken, s.ahead)

/-- The order in which there is less to do. -/
def Less : Nat × Nat × Nat × Nat × Nat → Nat × Nat × Nat × Nat × Nat → Prop :=
  Prod.Lex (· < ·) (Prod.Lex (· < ·) (Prod.Lex (· < ·) (Prod.Lex (· < ·) (· < ·))))

theorem less_of_owed {s t : Session σ} (h : t.owed < s.owed) : Less t.effort s.effort := .left _ _ h

theorem less_of_running {s t : Session σ} (h1 : t.owed = s.owed) (h : t.running < s.running) :
    Less t.effort s.effort := by
  rw [effort, h1]
  exact .right _ (.left _ _ h)

theorem less_of_pouring {s t : Session σ} (h1 : t.owed = s.owed) (h2 : t.running = s.running)
    (h : t.pouring < s.pouring) : Less t.effort s.effort := by
  rw [effort, h1, h2]
  exact .right _ (.right _ (.left _ _ h))

theorem less_of_woken {s t : Session σ} (h1 : t.owed = s.owed) (h2 : t.running = s.running)
    (h3 : t.pouring = s.pouring) (h : t.woken < s.woken) : Less t.effort s.effort := by
  rw [effort, h1, h2, h3]
  exact .right _ (.right _ (.right _ (.left _ _ h)))

theorem less_of_ahead {s t : Session σ} (h1 : t.owed = s.owed) (h2 : t.running = s.running)
    (h3 : t.pouring = s.pouring) (h4 : t.woken = s.woken) (h : t.ahead < s.ahead) :
    Less t.effort s.effort := by
  rw [effort, h1, h2, h3, h4]
  exact .right _ (.right _ (.right _ (.right _ h)))

/-! ### Steps of the tasks -/

/-- `t` owes what `s` owes, but for task `i`, which owes `e`. -/
structure Owes (s t : Session σ) (i e : Nat) : Prop where
  tasks : t.tasks.map Task.effort = (s.tasks.map Task.effort).set i e
  closed : t.ring.isClosed = s.ring.isClosed

/-- `t` owes what `s` owes. -/
structure SameOwed (s t : Session σ) : Prop where
  tasks : t.tasks.map Task.effort = s.tasks.map Task.effort
  closed : t.ring.isClosed = s.ring.isClosed

theorem SameOwed.owes {s t u : Session σ} {i e : Nat} (h : SameOwed s t) (h' : Owes t u i e) : Owes s u i e :=
  ⟨by rw [h'.tasks, h.tasks], h'.closed.trans h.closed⟩

theorem SameOwed.trans {s t u : Session σ} (h : SameOwed s t) (h' : SameOwed t u) : SameOwed s u :=
  ⟨h'.tasks.trans h.tasks, h'.closed.trans h.closed⟩

theorem SameOwed.owed_eq {s t : Session σ} (h : SameOwed s t) : t.owed = s.owed := by
  rw [owed, owed, h.tasks, h.closed]

/-- A task that moves on makes less to do. -/
theorem Owes.less {s t : Session σ} {i e : Nat} {task : Task} (h : Owes s t i e) (hi : s.tasks[i]? = some task)
    (he : e < task.effort) : Less t.effort s.effort := by
  apply less_of_owed
  have hget : (s.tasks.map Task.effort)[i]? = some task.effort := by simp [hi]
  have hsum := total_set (b := e) hget
  rw [owed, owed, h.tasks, h.closed]
  omega

theorem sameOwed_setRing (s : Session σ) {ring : Ring} (h : ring.isClosed = s.ring.isClosed) (woke : Bool) :
    SameOwed s (s.setRing ring woke) :=
  ⟨by rw [tasks_setRing, List.map_map]; congr 1; funext t; simp only [Function.comp]; split <;> simp,
    by simpa using h⟩

theorem sameOwed_note (s : Session σ) (mark : Mark) : SameOwed s (s.note mark) := ⟨by simp, by simp⟩

theorem owes_setTask (s : Session σ) (i : Nat) (task : Task) : Owes s (s.setTask i task) i task.effort :=
  ⟨by simp [List.map_set], rfl⟩

theorem owes_endTask (s : Session σ) (i : Nat) (task : Task) : Owes s (s.endTask i task) i task.effort :=
  ⟨by simp [List.map_set], rfl⟩

theorem owes_finish (s : Session σ) (i : Nat) (r : Reading) (result : Except Failure Delivery) :
    Owes s (s.finish i r result) i 0 := owes_endTask s i _

theorem owes_serve (s : Session σ) (i : Nat) (r : Reading) : Owes s (s.serve i r) i 0 := by
  unfold serve
  have h := sameOwed_setRing s (Ring.isClosed_readAt s.ring r.len r.position) (s.ring.readAt r.len r.position).woke
  simp only
  split
  · exact h.owes (owes_finish _ _ _ _)
  · exact (h.trans (sameOwed_note _ _)).owes (owes_finish _ _ _ _)

/-- A read that looks is over, or waits on and has nothing else to look at. -/
theorem owes_look (s : Session σ) (i : Nat) (r : Reading) (last : Nat) :
    Owes s (s.look i r last) i 0 ∨
      s.look i r last = (s.note .filling).setTask i (.read { r with phase := .waiting last false }) := by
  unfold look
  split
  · exact Or.inl (owes_finish _ _ _ _)
  · split
    · exact Or.inl (owes_finish _ _ _ _)
    · exact Or.inl (owes_serve _ _ _)
    · split
      · exact Or.inl (owes_serve _ _ _)
      · exact Or.inl (owes_finish _ _ _ _)
    · simp only
      split
      · exact Or.inl ((sameOwed_note _ _).owes (owes_finish _ _ _ _))
      · exact Or.inr rfl

theorem owes_look_le (s : Session σ) (i : Nat) (r : Reading) (last : Nat) :
    ∃ e, e ≤ 1 ∧ Owes s (s.look i r last) i e := by
  rcases owes_look s i r last with h | h
  · exact ⟨0, by omega, h⟩
  · exact ⟨1, Nat.le_refl _, by rw [h]; exact (sameOwed_note _ _).owes (owes_setTask _ _ _)⟩

theorem owes_connect (origin : Origin σ) (s : Session σ) (i : Nat) (r : Reading) (start : Nat) :
    ∃ e, e ≤ 1 ∧ Owes s (s.connect origin i r start) i e := by
  unfold connect
  split
  · exact ⟨0, by omega, (SameOwed.trans (s := s) (t := s.countAttempt) ⟨rfl, rfl⟩ (sameOwed_note _ _)).owes
      (owes_finish _ _ _ _)⟩
  · rename_i source _
    obtain ⟨e, he, hl⟩ := owes_look_le ((s.countAttempt.install source start).note .filling) i r
      (((s.countAttempt.install source start).note .filling).lastWanted r)
    exact ⟨e, he, (SameOwed.trans (s := s) (t := s.countAttempt.install source start) ⟨rfl, rfl⟩
      (sameOwed_note _ _)).owes hl⟩

theorem owes_restart (origin : Origin σ) (s : Session σ) (i : Nat) (r : Reading) :
    ∃ e, e ≤ 1 ∧ Owes s (s.restart origin i r) i e := by
  unfold restart
  have h := sameOwed_setRing s (Ring.isClosed_reset s.ring (r.position - s.stream.tier.margin))
    (s.ring.reset (r.position - s.stream.tier.margin)).woke
  simp only
  split
  · exact ⟨0, by omega, h.owes (owes_finish _ _ _ _)⟩
  · obtain ⟨e, he, hc⟩ := owes_connect origin (s.setRing (s.ring.reset (r.position - s.stream.tier.margin)).ring
      (s.ring.reset (r.position - s.stream.tier.margin)).woke) i r (r.position - s.stream.tier.margin)
    exact ⟨e, he, h.owes hc⟩

/-- A step of a task that can take one leaves less to do. -/
theorem effort_turn {origin : Origin σ} {s : Session σ} {i : Nat} (h : s.taskReady i = true) :
    Less (s.turn origin i).effort s.effort := by
  unfold taskReady at h
  unfold turn
  split at h
  · rename_i r hi
    unfold readStep
    split at h
    · rename_i hp
      have he : (Task.read r).effort = 3 := by simp [Task.effort, hp]
      split
      · exact (owes_finish _ _ _ _).less hi (by omega)
      · split
        · split
          · rename_i old _
            have hsame : SameOwed s (s.dismiss old) := ⟨rfl, rfl⟩
            refine (hsame.owes (owes_setTask _ _ _)).less hi ?_
            rw [he]
            simp [Task.effort]
          · obtain ⟨e, hle, ho⟩ := owes_restart origin s i r
            exact ho.less hi (by omega)
        · obtain ⟨e, hle, ho⟩ := owes_look_le s i r (s.lastWanted r)
          exact ho.less hi (by omega)
    · rename_i old hp
      have he : (Task.read r).effort = 2 := by simp [Task.effort, hp]
      simp only [h, if_true]
      obtain ⟨e, hle, ho⟩ := owes_restart origin s i r
      exact ho.less hi (by omega)
    · rename_i last told hp
      have he : (Task.read r).effort = 1 := by simp [Task.effort, hp]
      split
      · rename_i hw
        rcases owes_look s i r last with ho | ho
        · exact ho.less hi (by omega)
        · rw [ho]
          have hget : (s.tasks.map Task.effort)[i]? = some 1 := by simp [hi, he]
          have hsum := total_set (b := 1) hget
          have hwoken : (Task.read r).isWoken = true := by simp [Task.isWoken, hp, hw]
          have hcount := countP_set (p := Task.isWoken) (b := .read { r with phase := .waiting last false }) hi
          apply less_of_woken
          · simp only [owed, tasks_setTask, ring_setTask, tasks_note, ring_note, List.map_set, Task.effort]
            omega
          · simp [running]
          · simp [pouring]
          · simp only [woken, tasks_setTask, tasks_note]
            have hasleep : (Task.read { r with phase := .waiting last false }).isWoken = false := rfl
            rw [hwoken, hasleep] at hcount
            simp only [if_true, Bool.false_eq_true, if_false] at hcount
            omega
      · rename_i hw
        have hd : r.deadline ≤ s.now := by simpa [hw] using h
        simp only [hd, if_true]
        split <;> exact (owes_finish _ _ _ _).less hi (by omega)
    · simp at h
    · simp at h
  · rename_i c hi
    unfold closeStep
    split at h
    · split
      · exact Owes.less (e := 1) (SameOwed.owes (t := s.dismiss _) ⟨rfl, rfl⟩ (owes_setTask _ _ _)) hi
          (by simp [Task.effort])
      · exact (owes_endTask _ _ _).less hi (by simp [Task.effort])
    · simp only [h, if_true]
      exact (owes_endTask _ _ _).less hi (by simp [Task.effort])
    · simp at h
  · simp at h

/-! ### Steps of the feeds -/

/-- A step of a feed that can take one leaves less to do. -/
theorem effort_feedStep {origin : Origin σ} {s : Session σ} {k : Nat} (h : s.feedReady k = true) :
    Less (s.feedStep origin k).effort s.effort := by
  unfold feedReady at h
  split at h
  · rename_i f hk
    have hspent := Feed.spent_advance origin s.now s.ring h
    have hrun : f.isStopped = false := by
      rcases f with ⟨_, _, _, phase, _, _, _, _⟩
      cases phase <;> simp_all [Feed.isStopped, Feed.isReady]
    rw [feedStep_eq hk]
    generalize f.advance origin s.now s.ring = a at hspent
    have howed : ((s.setRing a.ring a.woke).setFeed k a.feed).owed = s.owed :=
      SameOwed.owed_eq ((sameOwed_setRing s hspent.closed a.woke).trans ⟨rfl, rfl⟩)
    have hk' : (s.feeds.map fun g => if a.woke then g.wake else g)[k]? =
        some (if a.woke then f.wake else f) := by simp [hk]
    have hcount : (s.feeds.map fun g => if a.woke then g.wake else g).countP (fun g => !g.isStopped) =
        s.running := by
      rw [List.countP_map, running]
      congr 1
      funext g
      simp only [Function.comp]
      split <;> simp
    have hset := countP_set (p := fun g : Feed σ => !g.isStopped) (b := a.feed) hk'
    have hold : (if a.woke = true then f.wake else f).isStopped = false := by split <;> simp [hrun]
    rw [hcount, hold] at hset
    rcases hspent.less with hstop | ⟨hgo, hless, hroom, hwoke⟩
    · apply less_of_running howed
      rw [running, feeds_setFeed, feeds_setRing]
      simp [hstop] at hset
      omega
    · apply less_of_pouring howed
      · rw [running, feeds_setFeed, feeds_setRing]
        simp [hgo] at hset
        omega
      · have hle : ∀ g ∈ s.feeds, (if a.woke then g.wake else g).effort a.ring.free ≤ g.effort s.ring.free := by
          intro g _
          split
          · exact Feed.effort_wake (hwoke ‹_›) g
          · exact Feed.effort_mono hroom g
        have hsum := total_map_le_sub hle hk
        have hget : ((s.feeds.map fun g => if a.woke then g.wake else g).map (Feed.effort a.ring.free))[k]? =
            some ((if a.woke then f.wake else f).effort a.ring.free) := by simp [hk]
        have hset' := total_set (b := a.feed.effort a.ring.free) hget
        rw [pouring, pouring, feeds_setFeed, feeds_setRing, ring_setFeed, ring_setRing, List.map_set]
        rw [List.map_map] at hset' ⊢
        simp only [Function.comp_def] at hset' ⊢
        omega
  · simp at h

/-! ### The stream and the time -/

theorem effort_expire {s : Session σ} (h : s.isForsaken = true) : Less s.expire.effort s.effort := by
  have hopen : s.ring.isClosed = false := by
    simp only [isForsaken, Bool.and_eq_true, Bool.not_eq_true'] at h
    exact h.2
  apply less_of_owed
  unfold expire
  simp only [owed, tasks_cancelAll, ring_cancelAll, ring_setRing, tasks_setRing, List.map_map]
  have hclose : s.ring.close.ring.isClosed = true := by
    unfold Ring.close
    rw [hopen]
    rfl
  have htasks : s.tasks.map (Task.effort ∘ fun t => if s.ring.close.woke then t.wake else t) =
      s.tasks.map Task.effort := by
    congr 1
    funext t
    simp only [Function.comp]
    split <;> simp
  rw [hclose, htasks, hopen]
  simp

theorem effort_now {s : Session σ} {due : Nat} (h : s.nextDue? = some due) :
    Less (effort { s with now := due }) s.effort := by
  have hmem : due ∈ s.timers.filter (s.now < ·) := List.min?_mem h
  obtain ⟨hin, hlt⟩ := List.mem_filter.mp hmem
  have hlt : s.now < due := by simpa using hlt
  refine less_of_ahead rfl rfl rfl rfl ?_
  show s.timers.countP (due < ·) < s.timers.countP (s.now < ·)
  refine countP_lt (fun x _ hx => ?_) hin (by simp) (by simpa using hlt)
  simp only [decide_eq_true_eq] at hx ⊢
  omega

theorem feedReady_of_next? {s : Session σ} {k : Nat} (h : s.next? = some (.feed k)) : s.feedReady k = true := by
  unfold next? at h
  split at h
  · rename_i j hj
    obtain rfl : j = k := by simpa using h
    obtain ⟨hlt, hp, _⟩ := List.findIdx?_eq_some_iff_getElem.mp hj
    simp [feedReady, hlt, hp]
  · split at h
    · simp at h
    · split at h <;> simp at h

theorem taskReady_of_next? {s : Session σ} {i : Nat} (h : s.next? = some (.task i)) : s.taskReady i = true := by
  unfold next? at h
  split at h
  · simp at h
  · split at h
    · rename_i j hj
      obtain rfl : j = i := by simpa using h
      exact (Option.filter_eq_some_iff.mp hj).2
    · split at h <;> simp at h

theorem isForsaken_of_next? {s : Session σ} (h : s.next? = some .stream) : s.isForsaken = true := by
  unfold next? at h
  split at h
  · simp at h
  · split at h
    · simp at h
    · split at h
      · assumption
      · simp at h

/-- Whatever happens by itself leaves less to do. -/
theorem effort_happen {origin : Origin σ} {limit : Option Nat} {s : Session σ} {e : Event}
    (h : s.event? limit = some e) : Less (s.happen origin e).effort s.effort := by
  unfold event? at h
  split at h
  · rename_i m hm
    obtain rfl := Option.some.inj h
    cases m with
    | feed k => exact effort_feedStep (feedReady_of_next? hm)
    | task i => exact effort_turn (taskReady_of_next? hm)
    | stream => exact effort_expire (isForsaken_of_next? hm)
  · obtain ⟨due, hdue, rfl⟩ := Option.map_eq_some_iff.mp h
    exact effort_now (Option.filter_eq_some_iff.mp hdue).1

end Session
end ReadAhead
