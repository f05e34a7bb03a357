import Mathlib.Data.List.Basic
import ReadAhead.Proofs.Session.Turns

/-! Two sessions side by side, one of which has a task more than the other, and that task is over. It stands in line no
    more, it waits for nothing and nothing wakes it, so the two go through the same steps (`Beside.move`), at the same
    times (`Beside.event?`), and take what the owner does in the same way (`Beside.act`). The tasks that come after it
    have other numbers in the two (`past`), and that is all. What is noted may differ until a step notes something. -/

namespace ReadAhead
namespace Session
variable {σ : Type} {origin : Origin σ} {s t : Session σ} {n i : Nat} {x new : Task} {us ts : List Task} {r : Reading}
  {apart : Prop}

/-! ### Tasks and their numbers -/

/-- The number of task `i` once another is put in at `n`. -/
def past (n i : Nat) : Nat := if i < n then i else i + 1

theorem past_of_le (h : n ≤ i) : past n i = i + 1 := if_neg (Nat.not_lt.mpr h)

theorem past_injective (n : Nat) : Function.Injective (past n) := by
  intro i j h
  simp only [past] at h
  split at h <;> split at h <;> omega

/-- The tasks `us` are `ts` with `x` put in at `n`. -/
def Inserted (n : Nat) (x : Task) (us ts : List Task) : Prop :=
  ∃ pre post, pre.length = n ∧ ts = pre ++ post ∧ us = pre ++ x :: post

theorem Inserted.le_length (h : Inserted n x us ts) : n ≤ ts.length := by
  obtain ⟨pre, post, rfl, rfl, -⟩ := h
  rw [List.length_append]
  exact Nat.le_add_right _ _

theorem Inserted.length (h : Inserted n x us ts) : us.length = past n ts.length := by
  rw [past_of_le h.le_length]
  obtain ⟨pre, post, rfl, rfl, rfl⟩ := h
  simp only [List.length_append, List.length_cons, Nat.add_assoc]

theorem Inserted.getElem?_self (h : Inserted n x us ts) : us[n]? = some x := by
  obtain ⟨pre, post, rfl, -, rfl⟩ := h
  rw [List.getElem?_append_right (Nat.le_refl _), Nat.sub_self, List.getElem?_cons_zero]

theorem Inserted.getElem? (h : Inserted n x us ts) (i : Nat) : us[past n i]? = ts[i]? := by
  obtain ⟨pre, post, rfl, rfl, rfl⟩ := h
  by_cases hi : i < pre.length
  · rw [past, if_pos hi, List.getElem?_append_left hi, List.getElem?_append_left hi]
  · have hle := Nat.not_lt.mp hi
    rw [past_of_le hle, List.getElem?_append_right (Nat.le_succ_of_le hle), List.getElem?_append_right hle,
      Nat.succ_sub hle, List.getElem?_cons_succ]

theorem Inserted.set (h : Inserted n x us ts) (i : Nat) (new : Task) :
    Inserted n x (us.set (past n i) new) (ts.set i new) := by
  obtain ⟨pre, post, rfl, rfl, rfl⟩ := h
  by_cases hi : i < pre.length
  · refine ⟨pre.set i new, post, List.length_set .., List.set_append_left _ _ hi, ?_⟩
    rw [past, if_pos hi, List.set_append_left _ _ hi]
  · have hle := Nat.not_lt.mp hi
    refine ⟨pre, post.set (i - pre.length) new, rfl, List.set_append_right _ _ hle, ?_⟩
    rw [past_of_le hle, List.set_append_right _ _ (Nat.le_succ_of_le hle), Nat.succ_sub hle, List.set_cons_succ]

theorem Inserted.set_self (h : Inserted n x us ts) (new : Task) : Inserted n new (us.set n new) ts := by
  obtain ⟨pre, post, rfl, rfl, rfl⟩ := h
  refine ⟨pre, post, rfl, rfl, ?_⟩
  rw [List.set_append_right _ _ (Nat.le_refl _), Nat.sub_self, List.set_cons_zero]

theorem Inserted.map (h : Inserted n x us ts) (f : Task → Task) : Inserted n (f x) (us.map f) (ts.map f) := by
  obtain ⟨pre, post, rfl, rfl, rfl⟩ := h
  exact ⟨pre.map f, post.map f, List.length_map .., List.map_append, List.map_append⟩

theorem Inserted.push (h : Inserted n x us ts) (new : Task) : Inserted n x (us ++ [new]) (ts ++ [new]) := by
  obtain ⟨pre, post, rfl, rfl, rfl⟩ := h
  exact ⟨pre, post ++ [new], rfl, List.append_assoc .., List.append_assoc ..⟩

theorem Inserted.all (h : Inserted n x us ts) (p : Task → Bool) : us.all p = (p x && ts.all p) := by
  obtain ⟨pre, post, -, rfl, rfl⟩ := h
  simp only [List.all_append, List.all_cons]
  exact Bool.and_left_comm ..

theorem Inserted.filterMap {α : Type} (h : Inserted n x us ts) {f : Task → Option α} (hx : f x = none) :
    us.filterMap f = ts.filterMap f := by
  obtain ⟨pre, post, -, rfl, rfl⟩ := h
  rw [List.filterMap_append, List.filterMap_append, List.filterMap_cons_none hx]

/-! ### One task more -/

/-- `t` has all that `s` has, and task `x` at `n`; who stands in line and what is noted is left open. -/
structure Adds (n : Nat) (x : Task) (t s : Session σ) : Prop extends Steady s t where
  held : t.held = s.held
  tasks : Inserted n x t.tasks s.tasks

theorem Adds.setRing (h : Adds n x t s) (ring : Ring) (woke : Bool) :
    Adds n (if woke then x.wake else x) (t.setRing ring woke) (s.setRing ring woke) := by
  refine ⟨⟨?_, ?_, ?_, ?_, ?_, ?_, ?_⟩, ?_, ?_⟩
  · rw [stream_setRing, stream_setRing, h.stream]
  · rw [now_setRing, now_setRing, h.now]
  · rw [attempts_setRing, attempts_setRing, h.attempts]
  · rw [ring_setRing, ring_setRing]
  · rw [feeds_setRing, feeds_setRing, h.feeds]
  · rw [slot_setRing, slot_setRing, h.slot]
  · rw [closed_setRing, closed_setRing, h.closed]
  · rw [held_setRing, held_setRing, h.held]
  · rw [tasks_setRing, tasks_setRing]
    exact h.tasks.map _

theorem Adds.feedStep (h : Adds n x t s) {k : Nat} {f : Feed σ} (hk : s.feeds[k]? = some f) :
    Adds n (if (f.advance origin s.now s.ring).woke then x.wake else x) (t.feedStep origin k) (s.feedStep origin k) := by
  have hk' : t.feeds[k]? = some f := by rw [h.feeds, hk]
  rw [feedStep_eq hk, feedStep_eq hk', h.now, h.ring]
  obtain ⟨⟨hstream, hnow, hattempts, hring, hfeeds, hslot, hclosed⟩, hheld, htasks⟩ :=
    h.setRing (f.advance origin s.now s.ring).ring (f.advance origin s.now s.ring).woke
  refine ⟨⟨hstream, hnow, hattempts, hring, ?_, hslot, hclosed⟩, hheld, htasks⟩
  rw [feeds_setFeed, feeds_setFeed, hfeeds]

theorem Adds.hasStopped (h : Adds n x t s) : t.hasStopped = s.hasStopped := by
  funext k
  rw [Session.hasStopped, Session.hasStopped, h.feeds]

theorem Adds.isStale (h : Adds n x t s) (r : Reading) : t.isStale r = s.isStale r := by
  unfold Session.isStale wantedEnd reach
  rw [h.slot, h.ring, h.stream]

theorem Adds.lastWanted (h : Adds n x t s) (r : Reading) : t.lastWanted r = s.lastWanted r := by
  simp only [Session.lastWanted, wantedEnd, reach, h.ring, h.stream]

theorem Adds.ringFailure (h : Adds n x t s) (cause : RingError) : t.ringFailure cause = s.ringFailure cause := by
  rw [Session.ringFailure, Session.ringFailure, h.closed]

theorem Adds.taskReady (h : Adds n x t s) (i : Nat) : t.taskReady (past n i) = s.taskReady i := by
  simp only [Session.taskReady, h.tasks.getElem?, h.hasStopped, h.now]

theorem Adds.isForsaken (h : Adds n x t s) : t.isForsaken = (x.isOver && s.isForsaken) := by
  simp only [Session.isForsaken, h.held, h.ring, h.tasks.all]
  cases x.isOver <;> simp

/-- Whatever somebody waits for in `s`, somebody waits for in `t`. -/
theorem Adds.timers (h : Adds n x t s) {time : Nat} (htime : time ∈ s.timers) : time ∈ t.timers := by
  rcases List.mem_append.mp htime with hfeed | htask
  · exact List.mem_append_left _ (h.feeds ▸ hfeed)
  · obtain ⟨y, hy, hdeadline⟩ := List.mem_filterMap.mp htask
    obtain ⟨j, hj⟩ := List.mem_iff_getElem?.mp hy
    rw [← h.tasks.getElem?] at hj
    exact List.mem_append_right _ (List.mem_filterMap.mpr ⟨y, List.mem_of_getElem? hj, hdeadline⟩)

/-! ### Side by side -/

/-- But for task `x`, which is over, `t` is the session `s`, and it shows the same, unless they are `apart`: then `t` may
    show itself filling where `s` does ready. -/
structure Beside (n : Nat) (x : Task) (apart : Prop) (t s : Session σ) : Prop extends Adds n x t s where
  ended : x.isOver = true
  turns : t.turns = s.turns.map (past n)
  mark : t.mark = s.mark ∨ apart ∧ t.mark = .filling ∧ s.mark = .ready

theorem Beside.mono {apart' : Prop} (h : Beside n x apart t s) (himp : apart → apart') : Beside n x apart' t s :=
  { h with mark := h.mark.imp_right fun ⟨ha, hmarks⟩ => ⟨himp ha, hmarks⟩ }

/-- Two sessions that show the same. -/
theorem Beside.of_mark (h : Beside n x apart t s) (hmark : t.mark = s.mark) : Beside n x False t s :=
  { h with mark := Or.inl hmark }

theorem Beside.setRing (h : Beside n x apart t s) (ring : Ring) (woke : Bool) :
    Beside n x apart (t.setRing ring woke) (s.setRing ring woke) := by
  have hadds := h.toAdds.setRing ring woke
  rw [Task.wake_of_isOver h.ended, ite_self] at hadds
  refine ⟨hadds, h.ended, ?_, ?_⟩
  · rw [turns_setRing, turns_setRing, h.turns]
  · rw [mark_setRing, mark_setRing]
    exact h.mark

/-- Once something is noted, they show the same. -/
theorem Beside.note_open (h : Beside n x apart t s) (hopen : s.closed = false) (mark : Mark) :
    Beside n x False (t.note mark) (s.note mark) := by
  have hopen' : t.closed = false := h.closed.trans hopen
  rw [Session.note, Session.note, if_neg (by simp [hopen']), if_neg (by simp [hopen])]
  exact { h with mark := Or.inl rfl }

theorem Beside.note (h : Beside n x apart t s) (mark : Mark) : Beside n x apart (t.note mark) (s.note mark) := by
  cases hc : s.closed with
  | false => exact (h.note_open hc mark).mono False.elim
  | true =>
    have hc' : t.closed = true := h.closed.trans hc
    simp only [Session.note, hc, hc', if_true]
    exact h

theorem Beside.setTask (h : Beside n x apart t s) (i : Nat) (new : Task) :
    Beside n x apart (t.setTask (past n i) new) (s.setTask i new) :=
  { h with tasks := h.tasks.set i new }

theorem Beside.endTask (h : Beside n x apart t s) (i : Nat) (new : Task) :
    Beside n x apart (t.endTask (past n i) new) (s.endTask i new) := by
  refine { h with tasks := h.tasks.set i new, turns := ?_ }
  rw [turns_endTask, turns_endTask, h.turns, List.map_erase (past_injective n)]

theorem Beside.finish (h : Beside n x apart t s) (i : Nat) (r : Reading) (result : Except Failure Delivery) :
    Beside n x apart (t.finish (past n i) r result) (s.finish i r result) := h.endTask i _

theorem Beside.dismiss (h : Beside n x apart t s) (old : Nat) : Beside n x apart (t.dismiss old) (s.dismiss old) :=
  { h with feeds := congrArg (·.modify old Feed.cancel) h.feeds, slot := rfl }

theorem Beside.install (h : Beside n x apart t s) (source : σ) (start : Nat) :
    Beside n x apart (t.install source start) (s.install source start) := by
  refine { h with feeds := ?_, slot := ?_ }
  · rw [feeds_install, feeds_install, h.feeds, h.stream]
  · rw [slot_install, slot_install, h.feeds]

theorem Beside.countAttempt (h : Beside n x apart t s) : Beside n x apart t.countAttempt s.countAttempt :=
  { h with attempts := congrArg (· + 1) h.attempts }

theorem Beside.cancelAll (h : Beside n x apart t s) : Beside n x apart t.cancelAll s.cancelAll :=
  { h with feeds := congrArg (·.map Feed.cancel) h.feeds }

/-! ### Turns -/

theorem Beside.serve (h : Beside n x apart t s) (i : Nat) (r : Reading) :
    Beside n x apart (t.serve (past n i) r) (s.serve i r) := by
  have hring := h.setRing (s.ring.readAt r.len r.position).ring (s.ring.readAt r.len r.position).woke
  unfold Session.serve
  simp only [h.ring, hring.ringFailure, hring.stream]
  split
  · exact hring.finish i r _
  · exact (hring.note .ready).finish i r _

theorem Beside.fallShort (h : Beside n x apart t s) (i : Nat) (r : Reading) (stop : Nat) :
    Beside n x apart (t.fallShort (past n i) r stop) (s.fallShort i r stop) := by
  unfold Session.fallShort
  simp only [current?, h.slot, h.feeds]
  exact h.finish i r _

theorem Beside.look (h : Beside n x apart t s) (i : Nat) (r : Reading) (last : Nat) :
    Beside n x apart (t.look (past n i) r last) (s.look i r last) := by
  unfold Session.look
  simp only [h.closed, h.ring, h.ringFailure, now_note, h.now]
  split
  · exact h.finish i r _
  · split
    · exact h.finish i r _
    · exact h.serve i r
    · split
      · exact h.serve i r
      · exact h.fallShort i r _
    · split
      · exact (h.note .filling).finish i r _
      · exact (h.note .filling).setTask i _

theorem Beside.connect (h : Beside n x apart t s) (i : Nat) (r : Reading) (start : Nat) :
    Beside n x apart (t.connect origin (past n i) r start) (s.connect origin i r start) := by
  unfold Session.connect
  rw [h.stream, h.attempts]
  split
  · exact (h.countAttempt.note .idle).finish i r _
  · rename_i source _
    have hjoined := (h.countAttempt.install source start).note .filling
    simp only [hjoined.lastWanted]
    exact hjoined.look i r _

theorem Beside.restart (h : Beside n x apart t s) (i : Nat) (r : Reading) :
    Beside n x apart (t.restart origin (past n i) r) (s.restart origin i r) := by
  have hring := h.setRing (s.ring.reset (r.position - s.stream.tier.margin)).ring
    (s.ring.reset (r.position - s.stream.tier.margin)).woke
  unfold Session.restart
  simp only [h.ring, h.stream, hring.ringFailure]
  split
  · exact hring.finish i r _
  · exact hring.connect i r _

theorem Beside.readStep (h : Beside n x apart t s) (i : Nat) (r : Reading) :
    Beside n x apart (t.readStep origin (past n i) r) (s.readStep origin i r) := by
  unfold Session.readStep
  simp only [h.closed, h.isStale, h.slot, h.lastWanted, h.hasStopped, h.now]
  split
  · split
    · exact h.finish i r _
    · split
      · split
        · exact (h.dismiss _).setTask i _
        · exact h.restart i r
      · exact h.look i r _
  · split
    · exact h.restart i r
    · exact h
  · split
    · exact h.look i r _
    · split
      · split
        · exact h.finish i r _
        · exact h.finish i r _
      · exact h
  · exact h
  · exact h

theorem Beside.closeStep (h : Beside n x apart t s) (i : Nat) (c : Closing) :
    Beside n x apart (t.closeStep (past n i) c) (s.closeStep i c) := by
  unfold Session.closeStep
  simp only [h.slot, h.hasStopped]
  split
  · split
    · exact (h.dismiss _).setTask i _
    · exact h.endTask i _
  · split
    · exact h.endTask i _
    · exact h
  · exact h

theorem Beside.turn (h : Beside n x apart t s) (i : Nat) :
    Beside n x apart (t.turn origin (past n i)) (s.turn origin i) := by
  unfold Session.turn
  rw [h.tasks.getElem?]
  split
  · exact h.readStep i _
  · exact h.closeStep i _
  · exact h

/-! ### Moves -/

theorem Beside.feedStep (h : Beside n x apart t s) (k : Nat) :
    Beside n x apart (t.feedStep origin k) (s.feedStep origin k) := by
  cases hk : s.feeds[k]? with
  | none =>
    unfold Session.feedStep
    rw [h.feeds, hk]
    exact h
  | some f =>
    have hadds : Adds n _ (t.feedStep origin k) (s.feedStep origin k) := h.toAdds.feedStep hk
    rw [Task.wake_of_isOver h.ended, ite_self] at hadds
    have hk' : t.feeds[k]? = some f := by rw [h.feeds, hk]
    refine ⟨hadds, h.ended, ?_, ?_⟩
    · rw [feedStep_eq hk, feedStep_eq hk', turns_setFeed, turns_setFeed, turns_setRing, turns_setRing, h.turns]
    · rw [feedStep_eq hk, feedStep_eq hk', mark_setFeed, mark_setFeed, mark_setRing, mark_setRing]
      exact h.mark

theorem Beside.expire (h : Beside n x apart t s) : Beside n x apart t.expire s.expire := by
  unfold Session.expire
  simp only [h.ring]
  exact (h.setRing _ _).cancelAll

def Mover.past (n : Nat) : Mover → Mover
  | .feed k => .feed k
  | .task i => .task (Session.past n i)
  | .stream => .stream

def Event.past (n : Nat) : Event → Event
  | .step m => .step (m.past n)
  | .wait due => .wait due

theorem Beside.move (h : Beside n x apart t s) (m : Mover) :
    Beside n x apart (t.move origin (m.past n)) (s.move origin m) := by
  cases m with
  | feed k => exact h.feedStep k
  | task i => exact h.turn i
  | stream => exact h.expire

theorem Beside.wait (h : Beside n x apart t s) (now : Nat) : Beside n x apart { t with now } { s with now } :=
  { h with now := rfl }

/-- The same mover is next in both. -/
theorem Beside.next? (h : Beside n x apart t s) : t.next? = s.next?.map (Mover.past n) := by
  unfold Session.next?
  rw [h.feeds, h.now, h.turns, List.head?_map, h.isForsaken, h.ended, Bool.true_and]
  cases s.feeds.findIdx? (·.isReady s.now) with
  | some k => rfl
  | none =>
    cases s.turns.head? with
    | none =>
      simp only [Option.map_none, Option.filter_none]
      split <;> rfl
    | some i =>
      simp only [Option.map_some, Option.filter_some, h.taskReady]
      cases s.taskReady i with
      | true => rfl
      | false =>
        simp only [Bool.false_eq_true, if_false]
        split <;> rfl

theorem Beside.isSettled (h : Beside n x apart t s) : t.IsSettled ↔ s.IsSettled := by
  rw [IsSettled, IsSettled, h.next?, Option.map_eq_none_iff]

theorem deadline?_of_isOver (h : x.isOver = true) : deadline? x = none := by
  rcases x with ⟨len, position, wait, deadline, phase⟩ | c
  · cases phase <;> first | rfl | cases h
  · rfl

theorem Beside.nextDue? (h : Beside n x apart t s) : t.nextDue? = s.nextDue? := by
  rw [Session.nextDue?, Session.nextDue?, timers, timers, h.feeds, h.now, h.tasks.filterMap (deadline?_of_isOver h.ended)]

/-- And the same happens. -/
theorem Beside.event? (h : Beside n x apart t s) (limit : Option Nat) :
    t.event? limit = (s.event? limit).map (Event.past n) := by
  unfold Session.event?
  rw [h.next?, h.nextDue?]
  cases s.next? with
  | some m => rfl
  | none =>
    rw [Option.map_none, Option.map_map]
    rfl

/-! ### What the owner does -/

def Act.past (n : Nat) : Act → Act
  | .start len position timeout => .start len position timeout
  | .abandon i => .abandon (Session.past n i)
  | .close => .close
  | .letGo => .letGo

/-- One more task for both. -/
theorem Beside.push (h : Beside n x apart t s) (new : Task) :
    Beside n x apart { t with tasks := t.tasks ++ [new] } { s with tasks := s.tasks ++ [new] } :=
  { h with tasks := h.tasks.push new }

/-- One more task for both, which stands in line. -/
theorem Beside.queue (h : Beside n x apart t s) (new : Task) :
    Beside n x apart { t with tasks := t.tasks ++ [new], turns := t.turns ++ [t.tasks.length] }
      { s with tasks := s.tasks ++ [new], turns := s.turns ++ [s.tasks.length] } := by
  refine { h.push new with turns := ?_ }
  rw [h.turns, h.tasks.length, List.map_append, List.map_singleton]

theorem Beside.start (h : Beside n x apart t s) (len position : Nat) (timeout : Option Duration) :
    Beside n x apart (t.start len position timeout) (s.start len position timeout) := by
  have hdone := fun result : Except Failure Delivery => h.push (.read ⟨len, position, s.stream.waitFor timeout,
    s.now + (s.stream.waitFor timeout).millisUp, .done result⟩)
  have hqueued := h.queue (.read ⟨len, position, s.stream.waitFor timeout,
    s.now + (s.stream.waitFor timeout).millisUp, .queued⟩)
  unfold Session.start
  simp only [h.stream, h.now, h.closed] at hdone hqueued ⊢
  split
  · exact hdone _
  · split
    · exact hdone _
    · split
      · exact hdone _
      · exact hqueued

theorem Beside.startClose (h : Beside n x apart t s) : Beside n x apart t.startClose s.startClose := by
  unfold Session.startClose
  by_cases hc : s.closed = true
  · rw [if_pos (h.closed.trans hc), if_pos hc]
    exact h.push (.close .done)
  · rw [if_neg (by rwa [h.closed]), if_neg hc]
    have hclosed : Beside n x apart { t.expire with closed := true } { s.expire with closed := true } :=
      { h.expire with closed := rfl }
    exact hclosed.queue (.close .queued)

theorem Beside.abandon (h : Beside n x apart t s) (i : Nat) :
    (t.abandon (past n i)).1 = (s.abandon i).1 ∧ Beside n x apart (t.abandon (past n i)).2 (s.abandon i).2 := by
  unfold Session.abandon
  rw [h.tasks.getElem?]
  split
  · split
    · exact ⟨rfl, h⟩
    · exact ⟨rfl, h.endTask i _⟩
  · exact ⟨rfl, h⟩

theorem Beside.letGo (h : Beside n x apart t s) : Beside n x apart t.letGo s.letGo :=
  { h with held := rfl }

theorem Beside.act (h : Beside n x apart t s) (a : Act) : Beside n x apart (t.act (a.past n)) (s.act a) := by
  cases a with
  | start len position timeout => exact h.start len position timeout
  | abandon i => exact (h.abandon i).2
  | close => exact h.startClose
  | letGo => exact h.letGo

end Session
end ReadAhead
