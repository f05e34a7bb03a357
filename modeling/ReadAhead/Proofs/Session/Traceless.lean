import ReadAhead.Proofs.Session.Ceiling
import ReadAhead.Proofs.Session.Clock
import ReadAhead.Proofs.Session.Mirror

/-! A read that waits in vain leaves no trace. While it waits beside a session in which nobody else does anything, the
    feeds go on in both alike (`Attended`), and it touches nothing but the note; when it is late or given up, it is a task
    that is over, and the two sessions go on side by side from there (`Mirrors`). A read that goes another way got an
    answer or asked for a connection (`Strayed`). So the session with the read follows the one that is let alone for as
    long (`Follows`). -/

namespace ReadAhead
namespace Session
variable {σ : Type} {origin : Origin σ} {may : Session σ → Act → Prop} {s s₀ t u base : Session σ} {n i last : Nat}
  {x : Task} {r : Reading}

/-! ### What is noted of a stream with a feed -/

theorem note_ne_idle {mark : Mark} (h : s.mark ≠ .idle) (hmark : mark ≠ .idle) : (s.note mark).mark ≠ .idle := by
  unfold Session.note
  split
  · exact h
  · exact hmark

theorem Looked.mark_ne_idle (hl : Looked s i r last t) (h : s.mark ≠ .idle) : t.mark ≠ .idle := by
  cases hl with
  | closed => exact h
  | shut => exact h
  | @served _ _ _ bytes left _ =>
    rw [finish_eq, mark_endTask]
    exact note_ne_idle (by rwa [mark_setRing]) (by simp)
  | short => exact h
  | late =>
    rw [finish_eq, mark_endTask]
    exact note_ne_idle h (by simp)
  | waits =>
    rw [mark_setTask]
    exact note_ne_idle h (by simp)

/-- An open stream with a feed in the slot is not noted idle. -/
theorem Arises.mark_ne_idle (h : Arises origin s) (hopen : s.closed = false) (hslot : s.slot.isSome = true) :
    s.mark ≠ .idle := by
  obtain ⟨s₀, hnew, hs⟩ := h
  induction hs with
  | refl =>
    obtain ⟨node, url, size, tier, readTimeout, maxReadTimeout, scratch, storage, now, -, rfl⟩ := hnew
    cases hslot
  | @tail s t hsu hstep ih =>
    have horderly := hnew.orderly.weaves hsu
    have hkeep : t.mark = s.mark → t.slot = s.slot → t.mark ≠ .idle := fun hmark hsame =>
      hmark ▸ ih (hstep.open hopen) (hsame ▸ hslot)
    cases horderly.stepCase hstep with
    | feed hk hr => exact hkeep (mark_feedStep _) (reringed_feedStep horderly.ring hk hr).slot
    | @read i r t _ hi hturn =>
      have hopen' := hstep.open hopen
      cases hturn with
      | closed => exact hkeep rfl rfl
      | dismiss => cases hslot
      | restart hold hr =>
        have hnone := horderly.slot_of_restart hi hold
        cases hr with
        | shut =>
          rw [finish_eq, slot_endTask, hnone] at hslot
          cases hslot
        | refused =>
          rw [finish_eq, slot_endTask, slot_note, slot_rebound, hnone] at hslot
          cases hslot
        | connected _ _ hlook =>
          refine hlook.mark_ne_idle ?_
          rw [joined, mark_note (by simpa using hopen')]
          simp
      | look hlast hl => exact hl.mark_ne_idle (ih hopen' (hl.slot ▸ hslot))
      | late => exact hkeep rfl rfl
    | @close i c _ hi =>
      have hshut := (closed_iff_hasClosing hnew hsu).mpr ⟨c, List.mem_of_getElem? hi⟩
      cases (hstep.open hopen).symm.trans hshut
    | expire => exact hkeep (by simp [Session.expire]) (by simp [Session.expire])
    | wait => exact hkeep rfl rfl
    | @act a _ =>
      rcases steady_or_closes a s with hsteady | ⟨-, tasks, turns, he⟩
      · exact hkeep (mark_act a s) hsteady.slot
      · rw [he] at hopen
        cases hopen

/-! ### A read that waits alone -/

/-- Nothing but read `r`, which has the turn, is in `t` beside the open session `s`, where nobody stands in line. -/
structure Attended (n : Nat) (r : Reading) (t s : Session σ) : Prop extends Adds n (.read r) t s where
  isOpen : s.closed = false
  alone : s.turns = []
  turns : t.turns = [n]
  kept : s.isForsaken = false

theorem Attended.note (h : Attended n r t s) (mark : Mark) : Attended n r (t.note mark) s := by
  unfold Session.note
  split
  · exact h
  · exact { h with }

theorem Attended.setTask {r' : Reading} (h : Attended n r t s) : Attended n r' (t.setTask n (.read r')) s :=
  { h with tasks := h.tasks.set_self _ }

theorem Attended.wait (h : Attended n r t s) (now : Nat) : Attended n r { t with now } { s with now } :=
  { h with now := rfl }

/-- The feeds come first in both, and then only the read can take a step. -/
theorem Attended.next? (h : Attended n r t s) :
    (∃ k, t.next? = some (.feed k) ∧ s.next? = some (.feed k)) ∨
      s.IsSettled ∧ (t.next? = some (.task n) ∨ t.IsSettled) := by
  unfold IsSettled Session.next?
  rw [h.feeds, h.now, h.turns, h.alone, h.isForsaken, h.kept, Bool.and_false]
  cases s.feeds.findIdx? (·.isReady s.now) with
  | some k => exact Or.inl ⟨k, rfl, rfl⟩
  | none =>
    refine Or.inr ⟨rfl, ?_⟩
    simp only [List.head?_cons, Option.filter_some]
    cases t.taskReady n with
    | true => exact Or.inl rfl
    | false => exact Or.inr rfl

theorem Attended.isSettled (h : Attended n r t s) (hrest : t.IsSettled) : s.IsSettled := by
  rcases h.next? with ⟨k, hk, -⟩ | ⟨hs, -⟩
  · cases hrest.symm.trans hk
  · exact hs

/-- Read `r` has not begun, or it waits for bytes and that is noted. -/
def Expects (t : Session σ) (r : Reading) : Prop :=
  r.phase = .queued ∨ t.mark = .filling ∧ ∃ last woken, r.phase = .waiting last woken

theorem Expects.told (h : t.Expects r) (woke : Bool) (hmark : u.mark = t.mark) :
    ∃ r', (if woke then (Task.read r).wake else .read r) = .read r' ∧ u.Expects r' := by
  rcases h with hp | ⟨hfilling, last, woken, hp⟩
  · exact ⟨r, by cases woke <;> simp [Task.wake, hp], Or.inl hp⟩
  · cases woke with
    | false => exact ⟨r, rfl, Or.inr ⟨hmark.trans hfilling, last, woken, hp⟩⟩
    | true =>
      exact ⟨{ r with phase := .waiting last true }, by simp [Task.wake, hp],
        Or.inr ⟨hmark.trans hfilling, last, true, rfl⟩⟩

theorem isForsaken_feedStep {k : Nat} (hring : s.ring.Sound) (hready : s.feedReady k = true) :
    (s.feedStep origin k).isForsaken = s.isForsaken := by
  obtain ⟨f, hk, hr⟩ := exists_of_feedReady hready
  have ht : Reringed s (s.feedStep origin k) _ := reringed_feedStep hring hk hr
  have hheld : (s.feedStep origin k).held = s.held := held_move origin s (.feed k)
  have hclosed : (s.feedStep origin k).ring.isClosed = s.ring.isClosed := by
    rw [ring_feedStep hk, (Feed.worked_advance hring origin hr).isClosed]
  have htold : ∀ woke : Bool, (Task.isOver ∘ fun x : Task => if woke then x.wake else x) = Task.isOver := by
    intro woke
    funext x
    cases woke <;> simp
  rw [isForsaken, isForsaken, hheld, hclosed, ht.tasks, List.all_map, htold]

theorem Attended.feedStep {k : Nat} (h : Attended n r t s) (hr : t.Expects r) (hring : s.ring.Sound)
    (hready : s.feedReady k = true) :
    ∃ r', Attended n r' (t.feedStep origin k) (s.feedStep origin k) ∧ (t.feedStep origin k).Expects r' := by
  obtain ⟨f, hk, -⟩ := exists_of_feedReady hready
  have hk' : t.feeds[k]? = some f := by rw [h.feeds, hk]
  obtain ⟨r', htold, hexpects⟩ := hr.told (f.advance origin s.now s.ring).woke
    (u := t.feedStep origin k) (mark_feedStep t)
  have hadds : Adds n _ (t.feedStep origin k) (s.feedStep origin k) := h.toAdds.feedStep hk
  rw [htold] at hadds
  refine ⟨r', ⟨hadds, ?_, ?_, ?_, ?_⟩, hexpects⟩
  · rw [feedStep_eq hk, closed_setFeed, closed_setRing, h.isOpen]
  · rw [feedStep_eq hk, turns_setFeed, turns_setRing, h.alone]
  · rw [feedStep_eq hk', turns_setFeed, turns_setRing, h.turns]
  · rw [isForsaken_feedStep hring hready, h.kept]

/-! ### Reads that do not wait alone -/

/-- Read `n` got an answer other than that it is late, or it waits for a feed to stop, or more than `attempts` connections
    were attempted. -/
inductive Strayed (attempts n : Nat) (t : Session σ) : Prop
  | answered {r : Reading} {result : Except Failure Delivery} (hn : t.tasks[n]? = some (.read r))
    (hp : r.phase = .done result) (hno : ∀ position wait, result ≠ .error (.timeout position wait))
  | replaces {r : Reading} {old : Nat} (hn : t.tasks[n]? = some (.read r)) (hp : r.phase = .replacing old)
    (hle : attempts ≤ t.attempts)
  | connects (h : attempts < t.attempts)

/-- What a read that replaces the feed comes to once the old one has stopped. -/
theorem Restarted.strayed {attempts : Nat} (hr : Restarted origin t n r u) (hlt : n < t.tasks.length)
    (hle : attempts ≤ t.attempts) : Strayed attempts n u := by
  cases hr with
  | shut =>
    refine .answered (List.getElem?_set_self hlt) rfl fun position wait he => ?_
    unfold ringFailure at he
    split at he <;> cases he
  | refused =>
    refine .connects ?_
    rw [finish_eq, attempts_endTask, attempts_note, attempts_rebound]
    exact Nat.lt_succ_of_le hle
  | connected _ _ hlook =>
    refine .connects ?_
    rw [hlook.quiet.attempts, attempts_joined]
    exact Nat.lt_succ_of_le hle

theorem Strayed.move {m : Mover} {attempts : Nat} (h : Strayed attempts n t) (ht : t.Orderly) (hm : t.CanMove m) :
    Strayed attempts n (t.move origin m) := by
  have hstep : Weave origin Leisurely t (t.move origin m) := .move hm
  have hmono := ht.attempts_le hstep
  cases h with
  | @answered r result hn hp hno => exact .answered (over_move hm hn (by simp [Task.isOver, hp])) hp hno
  | connects h => exact .connects (Nat.lt_of_lt_of_le h hmono)
  | @replaces r old hn hp hle =>
    by_cases hmn : m = .task n
    · subst hmn
      have hread : ReadTurn origin t n r (t.move origin (.task n)) := by
        rw [Session.move, Session.turn, hn]
        exact ht.readTurn hn hm.2
      generalize t.move origin (.task n) = u at hread
      cases hread with
      | closed hq => cases hp.symm.trans hq
      | dismiss hq => cases hp.symm.trans hq
      | restart _ hr => exact hr.strayed (List.getElem?_eq_some_iff.mp hn).1 hle
      | look hlast =>
        rcases hlast with ⟨hq, -⟩ | hq
        · cases hp.symm.trans hq
        · cases hp.symm.trans hq
      | late hq => cases hp.symm.trans hq
    · obtain ⟨i, hne, hspares⟩ := exists_spares_move origin t hmn
      obtain ⟨woke, htold⟩ := hspares.others n hne
      have hsame : (Task.read r).wake = .read r := Task.wake_of_not_waiting (by simp [Task.isWaiting, hp])
      rw [hn, Option.map_some, hsame, ite_self] at htold
      exact .replaces htold hp (Nat.le_trans hle hmono)

/-- A read that strayed without a connection attempted is not late. -/
theorem Strayed.result?_ne {attempts : Nat} (h : Strayed attempts n t) (hattempts : t.attempts = attempts)
    (position wait : Nat) : t.result? n ≠ some (.error (.timeout position wait)) := by
  intro hresult
  unfold Session.result? at hresult
  cases h with
  | answered hn hp hno =>
    simp only [hn, hp] at hresult
    exact hno _ _ (Option.some.inj hresult)
  | replaces hn hp => simp [hn, hp] at hresult
  | connects h => omega

/-- Nor does it wait, when nobody can take a step. -/
theorem Strayed.isOver {attempts : Nat} (h : Strayed attempts n t) (ht : t.Orderly) (hrest : t.IsSettled)
    (hattempts : t.attempts = attempts) : t.isOver n = true := by
  cases h with
  | answered hn hp => simp [Session.isOver, hn, Task.isOver, hp]
  | replaces hn hp =>
    have hnone := ht.old?_of_isSettled hrest (List.mem_of_getElem? hn)
    simp [Task.old?, hp] at hnone
  | connects h => omega

/-! ### Following a session that is let alone -/

/-- How `t`, in which read `n` was started in `base`, stands to `s`, in which it was not: the read waits beside `s`, or it
    is over and left no trace but the note, or it strayed. -/
inductive Follows (origin : Origin σ) (base : Session σ) (n : Nat) (t s : Session σ) : Prop
  | waits {r : Reading} (h : Attended n r t s) (hr : t.Expects r) (hstill : LastTurn origin Leisurely base none s)
    (hattempts : t.attempts = base.attempts)
  | mirrors {x : Task} (h : Mirrors origin base n x t s)
  | strays (h : Strayed base.attempts n t)

/-- The read leaves the line, and has noted that the stream is filling. -/
theorem Attended.endTask (h : Attended n r t s) (hbase : Rests origin base)
    (hstill : LastTurn origin Leisurely base none s) (hslot : s.slot.isSome = true) (hfilling : t.mark = .filling)
    (hx : x.isOver = true) : Mirrors origin base n x (t.endTask n x) s := by
  have hs := hbase.arises.weaves hstill.weaves
  refine { h with tasks := h.tasks.set_self x, ended := hx, turns := ?_, mark := ?_, arises := hs, rests := hbase }
  · rw [turns_endTask, h.turns, h.alone, List.erase_cons_head, List.map_nil]
  · rw [mark_endTask, hfilling]
    cases hmark : s.mark with
    | idle => exact absurd hmark (hs.mark_ne_idle h.isOpen hslot)
    | filling => exact Or.inl rfl
    | ready => exact Or.inr ⟨.still hstill, rfl, rfl⟩

/-- A read that its feed left is not called late, whatever the feed failed with. -/
theorem fallShort_ne_timeout (s : Session σ) (i : Nat) (r : Reading) (stop : Nat) :
    ∃ failure, s.fallShort i r stop = s.finish i r (.error failure) ∧
      ∀ position wait, failure ≠ .timeout position wait := by
  refine ⟨_, rfl, fun position wait => ?_⟩
  split
  · split
    · nofun
    · rename_i hno
      rintro rfl
      exact hno rfl
  · nofun

/-- A turn of the read while nothing else is in line. -/
theorem Attended.turn (h : Attended n r t s) (hr : t.Expects r) (hbase : Rests origin base)
    (hstill : LastTurn origin Leisurely base none s) (hattempts : t.attempts = base.attempts) (ht : t.Orderly)
    (hready : t.taskReady n = true) : Follows origin base n (t.turn origin n) s := by
  have hn : t.tasks[n]? = some (.read r) := h.tasks.getElem?_self
  have hlt : n < t.tasks.length := (List.getElem?_eq_some_iff.mp hn).1
  have hread : ReadTurn origin t n r (t.turn origin n) := by
    rw [Session.turn, hn]
    exact ht.readTurn hn hready
  generalize t.turn origin n = u at hread
  cases hread with
  | closed => exact .strays (.answered (List.getElem?_set_self hlt) rfl (by simp))
  | dismiss => exact .strays (.replaces (List.getElem?_set_self hlt) rfl (Nat.le_of_eq hattempts.symm))
  | restart _ hrestarts => exact .strays (hrestarts.strayed hlt (Nat.le_of_eq hattempts.symm))
  | look hlast hl =>
    have hslot : t.slot.isSome = true := ht.slot_of_look hn hlast
    cases hl with
    | closed => exact .strays (.answered (List.getElem?_set_self hlt) rfl (by simp))
    | shut => exact .strays (.answered (List.getElem?_set_self hlt) rfl (by simp))
    | served =>
      refine .strays (.answered (List.getElem?_set_self ?_) rfl (by simp))
      simpa [tasks_setRing] using hlt
    | @short stop =>
      obtain ⟨failure, he, hno⟩ := fallShort_ne_timeout t n r stop
      rw [he]
      exact .strays (.answered (List.getElem?_set_self hlt) rfl fun position wait h => hno _ _ (Except.error.inj h))
    | late hc =>
      exact .mirrors ((h.note .filling).endTask hbase hstill (h.slot ▸ hslot) (mark_note hc _) rfl)
    | waits hc =>
      refine .waits (h.note .filling).setTask (Or.inr ⟨?_, _, _, rfl⟩) hstill ?_
      · rw [mark_setTask, mark_note hc]
      · rw [attempts_setTask, attempts_note, hattempts]
  | late hp =>
    obtain ⟨hslot, -⟩ := ht.waiting hn hp
    rcases hr with hq | ⟨hfilling, -⟩
    · cases hp.symm.trans hq
    · exact .mirrors (h.endTask hbase hstill (h.slot ▸ hslot) hfilling rfl)

theorem Follows.move {m : Mover} (h : Follows origin base n t s) (hbase : Rests origin base) (ht : t.Orderly)
    (hnext : t.next? = some m) :
    ∃ s', (∀ time, s.passUntil origin time = s'.passUntil origin time) ∧ Follows origin base n (t.move origin m) s' := by
  have hm := canMove_of_next? hnext
  cases h with
  | @waits r h hr hstill hattempts =>
    rcases h.next? with ⟨k, hk, hk'⟩ | ⟨-, hn | hrest⟩
    · -- A feed takes its step in both.
      obtain rfl := Option.some.inj (hk.symm.trans hnext)
      have hs := hbase.arises.weaves hstill.weaves
      have hstep : Weave origin Leisurely s (s.feedStep origin k) := .move (m := .feed k) (canMove_of_next? hk')
      obtain ⟨f, hf, hready⟩ := exists_of_feedReady (canMove_of_next? hk')
      have hring : Reringed s (s.feedStep origin k) _ := reringed_feedStep hs.orderly.ring hf hready
      obtain ⟨r', h', hr'⟩ := h.feedStep hr hs.orderly.ring (canMove_of_next? hk')
      refine ⟨s.feedStep origin k, passUntil_move hk', .waits h' hr' ?_ ?_⟩
      · exact hstill.other hstep (hs.orderly.no_turn_of_told _ hring.tasks)
      · exact (quiet_feedStep hm).attempts.trans hattempts
    · obtain rfl := Option.some.inj (hn.symm.trans hnext)
      exact ⟨s, fun _ => rfl, h.turn hr hbase hstill hattempts ht hm.2⟩
    · cases hrest.symm.trans hnext
  | mirrors h =>
    rw [h.next?] at hnext
    obtain ⟨m', hm', rfl⟩ := Option.map_eq_some_iff.mp hnext
    exact ⟨s.move origin m', passUntil_move hm', .mirrors (h.move (canMove_of_next? hm'))⟩
  | strays h => exact ⟨s, fun _ => rfl, .strays (h.move ht hm)⟩

/-- Up to the first moment that somebody waits for, both may be let alone. -/
theorem Follows.wait {due : Nat} (h : Follows origin base n t s) (hrest : t.IsSettled) (hle : t.now ≤ due) (hfirst : ∀ y ∈ t.timers, t.now < y → due ≤ y) :
    ∃ s', (∀ time, due ≤ time → s.passUntil origin time = s'.passUntil origin time) ∧
      Follows origin base n { t with now := due } s' := by
  have hboth : ∀ {y}, Adds n y t s → s.IsSettled →
      ∀ time, due ≤ time → s.passUntil origin time = passUntil origin time { s with now := due } :=
    fun hadds hsettled _ htime => passUntil_wait hsettled (hadds.now ▸ hle)
      (fun y hy hahead => hfirst y (hadds.timers hy) (hadds.now ▸ hahead)) htime
  cases h with
  | @waits r h hr hstill hattempts =>
    have hsettled := h.isSettled hrest
    have hstep : Weave origin Leisurely s { s with now := due } := .wait (h.now ▸ hle)
    exact ⟨_, hboth h.toAdds hsettled, .waits (h.wait due) hr (hstill.other hstep hsettled.no_turn) hattempts⟩
  | mirrors h => exact ⟨_, hboth h.toAdds (h.isSettled.mp hrest), .mirrors (h.wait (h.now ▸ hle))⟩
  | strays h =>
    refine ⟨s, fun _ _ => rfl, .strays ?_⟩
    cases h with
    | answered hn hp hno => exact .answered hn hp hno
    | replaces hn hp hle => exact .replaces hn hp hle
    | connects h => exact .connects h

/-- Let alone as long as it takes, `s` comes to a session that `t` follows. -/
structure Pursues (origin : Origin σ) (base : Session σ) (n : Nat) (t s : Session σ) : Prop where
  rests : Rests origin base
  arises : Arises origin t
  meets : ∃ s', (∀ time, t.now ≤ time → s.passUntil origin time = s'.passUntil origin time) ∧
    Follows origin base n t s'

theorem Pursues.wait {due : Nat} (h : Pursues origin base n t s) (hrest : t.IsSettled) (hle : t.now ≤ due)
    (hfirst : ∀ y ∈ t.timers, t.now < y → due ≤ y) : Pursues origin base n { t with now := due } s := by
  obtain ⟨s', hmeets, hfollows⟩ := h.meets
  obtain ⟨s'', hgoes, hfollows'⟩ := hfollows.wait hrest hle hfirst
  refine ⟨h.rests, h.arises.weave (weave_of_step (.wait hrest hle hfirst)), s'', fun time htime => ?_, hfollows'⟩
  rw [hmeets time (Nat.le_trans hle htime), hgoes time htime]

theorem Pursues.happen {limit : Option Nat} {e : Event} (h : Pursues origin base n t s) (he : t.event? limit = some e) :
    Pursues origin base n (t.happen origin e) s := by
  cases occurs he with
  | step hm =>
    obtain ⟨s', hmeets, hfollows⟩ := h.meets
    obtain ⟨s'', hgoes, hfollows'⟩ := hfollows.move h.rests h.arises.orderly hm
    refine ⟨h.rests, h.arises.weave (weave_of_step (.move (canMove_of_next? hm))), s'', fun time htime => ?_, hfollows'⟩
    rw [Session.happen, now_move] at htime
    rw [hmeets time htime, hgoes]
  | wait hrest hahead hfirst => exact h.wait hrest (Nat.le_of_lt hahead) hfirst

theorem Pursues.run (h : Pursues origin base n t s) (limit : Option Nat) (enough : Session σ → Bool) :
    Pursues origin base n (t.run origin limit enough) s := by
  fun_induction Session.run origin limit enough t with
  | case1 t hdone => exact h
  | case2 t hmore hnone => exact h
  | case3 t hmore e he ih => exact ih (h.happen he)

theorem Pursues.passUntil (h : Pursues origin base n t s) (time : Nat) :
    Pursues origin base n (t.passUntil origin time) s :=
  (h.run (some time) fun _ => false).wait (isSettled_of_event? (isSettled_run origin (some time) t))
    (now_run origin time (fun _ => false) t).2 fun _ => le_of_timer_run origin time t

/-- When nobody can take a step, the session has caught up. -/
theorem Pursues.follows (h : Pursues origin base n t s) (hrest : t.IsSettled) :
    Follows origin base n t (s.passUntil origin t.now) := by
  obtain ⟨s', hmeets, hfollows⟩ := h.meets
  have hcatch : ∀ {y}, Adds n y t s' → s'.IsSettled → s.passUntil origin t.now = s' := fun hadds hsettled => by
    rw [hmeets _ (Nat.le_refl _), hadds.now, passUntil_now hsettled]
  cases hfollows with
  | waits h hr hstill hattempts =>
    rw [hcatch h.toAdds (h.isSettled hrest)]
    exact .waits h hr hstill hattempts
  | mirrors h =>
    rw [hcatch h.toAdds (h.isSettled.mp hrest)]
    exact .mirrors h
  | strays h => exact .strays h

/-! ### Reads in a session at rest -/

/-- In a settled session in which no read is under way, nobody is. -/
theorem Arises.rests (h : Arises origin s) (hrest : s.IsSettled)
    (hidle : ∀ r, .read r ∈ s.tasks → (Task.read r).isOver = true) : Rests origin s := by
  refine ⟨h, fun x hx => ?_⟩
  cases hover : x.isOver with
  | true => rfl
  | false =>
    -- The read that would have the turn is under way.
    exfalso
    obtain ⟨i, hi⟩ := List.mem_iff_getElem?.mp hx
    obtain ⟨j, r, hhead, -, hj, -⟩ := h.orderly.exists_head hrest hi hover
    obtain ⟨y, hy, hgo⟩ := (h.orderly.lined.mem_iff j).mp (List.mem_of_mem_head? hhead)
    obtain rfl := Option.some.inj (hj.symm.trans hy)
    cases (hidle r (List.mem_of_getElem? hj)).symm.trans hgo

theorem Rests.follows_start (h : Rests origin s) (hrest : s.IsSettled) (len position : Nat) (timeout : Option Duration) :
    Follows origin s s.tasks.length (s.start len position timeout) s := by
  have hturns := h.arises.orderly.lined.eq_nil h.idle
  have hkept : s.isForsaken = false := by
    cases hforsaken : s.isForsaken with
    | false => rfl
    | true => exact absurd hforsaken (hrest.not_canMove .stream)
  unfold Session.start
  simp only
  split
  · exact .strays (.answered List.getElem?_concat_length rfl (by simp))
  · rename_i hopen
    split
    · exact .strays (.answered List.getElem?_concat_length rfl (by simp))
    · split
      · exact .strays (.answered List.getElem?_concat_length rfl (by simp))
      · refine .waits (r := s.reading len position timeout) ⟨⟨⟨rfl, rfl, rfl, rfl, rfl, rfl, rfl⟩, rfl, ?_⟩, by simpa using hopen,
          hturns, ?_, hkept⟩ (Or.inl rfl) .new rfl
        · exact ⟨s.tasks, [], rfl, (List.append_nil _).symm, rfl⟩
        · simp only [hturns, List.nil_append]

theorem Rests.pursues_start (h : Rests origin s) (hrest : s.IsSettled) (len position : Nat) (timeout : Option Duration) :
    Pursues origin s s.tasks.length (s.start len position timeout) s := by
  have hstep : Weave origin Leisurely s (s.start len position timeout) := .act (a := .start len position timeout) hrest
  exact ⟨h, h.arises.weave hstep, s, fun _ _ => rfl, h.follows_start hrest len position timeout⟩

theorem Pursues.performAll_pass (h : Pursues origin base n t s) (waits : List Nat) :
    Pursues origin base n (t.performAll origin (waits.map .pass)) s := by
  induction waits generalizing t with
  | nil => exact h
  | cons millis waits ih => exact ih ((h.passUntil _).run _ _)

theorem Expects.result?_eq_none (h : t.Expects r) (hn : t.tasks[n]? = some (.read r)) : t.result? n = none := by
  rcases h with hp | ⟨-, last, woken, hp⟩
  · simp [Session.result?, hn, hp]
  · simp [Session.result?, hn, hp]

theorem Follows.mirrors_of_late (h : Follows origin base n t s) (hattempts : t.attempts = base.attempts)
    {position wait : Nat} (hlate : t.result? n = some (.error (.timeout position wait))) :
    ∃ x, Mirrors origin base n x t s := by
  cases h with
  | waits h hr =>
    rw [hr.result?_eq_none h.tasks.getElem?_self] at hlate
    cases hlate
  | mirrors h => exact ⟨_, h⟩
  | strays h => exact absurd hlate (h.result?_ne hattempts _ _)

/-- A read that is given up while it waits. -/
theorem Follows.mirrors_abandon (h : Follows origin base n t s) (hbase : Rests origin base) (ht : t.Orderly)
    (hrest : t.IsSettled) (hattempts : t.attempts = base.attempts) (hgo : t.isOver n = false) :
    s.IsSettled ∧ ∃ x, Mirrors origin base n x (t.abandon n).2 s := by
  cases h with
  | @waits r h hr hstill =>
    have hn : t.tasks[n]? = some (.read r) := h.tasks.getElem?_self
    have hsettled := h.isSettled hrest
    have hover : (Task.read r).isOver = false := by simpa [Session.isOver, hn] using hgo
    refine ⟨hsettled, .read { r with phase := .abandoned }, ?_⟩
    simp only [Session.abandon, hn, hover, Bool.false_eq_true, if_false]
    rcases hr with hq | ⟨hfilling, last, woken, hp⟩
    · -- A read that has not begun could take its turn.
      refine absurd ⟨?_, ?_⟩ (hrest.not_canMove (.task n))
      · rw [h.turns]
        rfl
      · simp only [taskReady, hn, hq]
    · exact h.endTask hbase hstill (h.slot ▸ (ht.waiting hn hp).1) hfilling rfl
  | mirrors h =>
    have hover := h.ended
    simp [Session.isOver, h.tasks.getElem?_self, hover] at hgo
  | strays h =>
    rw [h.isOver ht hrest hattempts] at hgo
    cases hgo

/-- All that can be asked of a stream is the same in `t` as in `s`, but that the tasks from `n` on have the next number in
    `t`: the time, the ring, the feeds, the attempts to connect, and what became of each task. So is the state that is
    shown, but that `t` may be filling where `s` is ready, as long as no read has taken its turn since `base`. -/
structure Indistinct (origin : Origin σ) (base : Session σ) (n : Nat) (t s : Session σ) : Prop where
  adds : ∃ x, x.isOver = true ∧ Adds n x t s
  result? : ∀ i, t.result? (past n i) = s.result? i
  lifecycle : s.IsHeld → t.lifecycle = s.lifecycle ∨
    t.lifecycle = .filling ∧ s.lifecycle = .ready ∧ LastTurn origin Leisurely base none s

theorem Mirrors.indistinct (h : Mirrors origin base n x t s) (hrest : s.IsSettled) : Indistinct origin base n t s :=
  ⟨⟨x, h.ended, h.toAdds⟩, h.toBeside.result?, fun hheld => h.lifecycle hrest hheld⟩

theorem Mirrors.indistinct_performAll (h : Mirrors origin base n x t s) (hrest : s.IsSettled) (cs : List Command) :
    Indistinct origin base n (t.performAll origin (cs.map (Command.past n))) (s.performAll origin cs) :=
  (h.performAll hrest cs).indistinct (reaches_performAll origin cs hrest).2

/-- A new stream comes to a settled session in which no read is under way, whoever owns it. Let a read be started then
    that asks for no connection and is late in the end. After whatever the owner asks for from then on, all is as if it
    had let the stream alone for as long, but for what is shown until the next read takes its turn. So it is where the
    owner does not wait for the read but lets time pass, and the read is late by then, or is given up before it is
    over. -/
theorem late_read_leaves_no_trace {len position : Nat} {timeout : Option Duration} (hnew : IsNew s₀)
    (hs : Weaves origin may s₀ s) (hrest : s.IsSettled)
    (hidle : ∀ r, .read r ∈ s.tasks → (Task.read r).isOver = true) :
    (∀ late wait t, s.read origin len position timeout = (some (.error (.timeout late wait)), t) →
      t.attempts = s.attempts → ∀ cs,
        Indistinct origin s s.tasks.length (t.performAll origin (cs.map (Command.past s.tasks.length)))
          ((s.passUntil origin t.now).performAll origin cs)) ∧
    ∀ (passes : List Nat) t, t = s.performAll origin (.start len position timeout :: passes.map .pass) →
      t.attempts = s.attempts →
      (∀ late wait, t.result? s.tasks.length = some (.error (.timeout late wait)) → ∀ cs,
        Indistinct origin s s.tasks.length (t.performAll origin (cs.map (Command.past s.tasks.length)))
          ((s.passUntil origin t.now).performAll origin cs)) ∧
      (t.isOver s.tasks.length = false → ∀ cs,
        Indistinct origin s s.tasks.length
          ((t.perform origin (.abandon s.tasks.length)).performAll origin (cs.map (Command.past s.tasks.length)))
          ((s.passUntil origin t.now).performAll origin cs)) := by
  have hrests := (arises hnew hs).rests hrest hidle
  have hstart := hrests.pursues_start hrest len position timeout
  refine ⟨fun late wait t hread hattempts cs => ?_, fun passes t ht hattempts => ?_⟩
  · obtain ⟨hresult, rfl⟩ := Prod.mk.inj hread
    have hawait : Pursues origin s s.tasks.length ((s.start len position timeout).await origin s.tasks.length) s :=
      (hstart.run _ _).run _ _
    have hsettled := isSettled_settle origin ((s.start len position timeout).run origin none fun t => t.isOver s.tasks.length)
    obtain ⟨x, hmirrors⟩ := (hawait.follows hsettled).mirrors_of_late hattempts hresult
    exact hmirrors.indistinct_performAll (hmirrors.isSettled.mp hsettled) cs
  · have hpasses : Pursues origin s s.tasks.length t s := by
      rw [ht]
      exact (hstart.run _ _).performAll_pass passes
    have hsettled : t.IsSettled := by
      rw [ht]
      exact (reaches_performAll origin _ hrest).2
    have hfollows := hpasses.follows hsettled
    refine ⟨fun late wait hlate cs => ?_, fun hgo cs => ?_⟩
    · obtain ⟨x, hmirrors⟩ := hfollows.mirrors_of_late hattempts hlate
      exact hmirrors.indistinct_performAll (hmirrors.isSettled.mp hsettled) cs
    · obtain ⟨hstill, x, hmirrors⟩ := hfollows.mirrors_abandon hrests hpasses.arises.orderly hsettled hattempts hgo
      have hgiven : Mirrors origin s s.tasks.length x (t.perform origin (.abandon s.tasks.length))
          (s.passUntil origin t.now) := by
        have hsettle := hmirrors.settle
        rwa [settle_of_isSettled hstill] at hsettle
      exact hgiven.indistinct_performAll hstill cs

/-- The source has been asked for a byte that nobody wants any more. -/
def unwanted : Session Unit := (justAsked.abandon 0).2

theorem weaves_unwanted : Weaves slow (fun u _ => u.IsSettled) (onStorage oneByte (Bytes.ofFn 1 fun _ => 0) 0) unwanted :=
  (Relation.ReflTransGen.mono (fun _ _ => weave_of_step) _ _ reaches_justAsked).tail (.act (a := .abandon 0) rfl)

/-- Another read of it waited for one millisecond. -/
def lateAgain : Session Unit :=
  (unwanted.start 1 0 (some (.ofMillis 1))).runFor slow none (fun t => t.isOver 1) 3

theorem read_lateAgain :
    unwanted.read slow 1 0 (some (.ofMillis 1)) = (some (.error (.timeout 0 1)), lateAgain) := by
  have hrun := run_eq_runFor slow none (fun t => t.isOver 1) 3 (unwanted.start 1 0 (some (.ofMillis 1))) (Or.inl rfl)
  have hsettle : lateAgain.settle slow = lateAgain := settle_of_isSettled rfl
  have hread : unwanted.read slow 1 0 (some (.ofMillis 1)) =
    (result? (((unwanted.start 1 0 (some (.ofMillis 1))).run slow none fun t => t.isOver 1).settle slow) 1,
      ((unwanted.start 1 0 (some (.ofMillis 1))).run slow none fun t => t.isOver 1).settle slow) := rfl
  have hresult : lateAgain.result? 1 = some (.error (.timeout 0 1)) := rfl
  rw [hread, hrun]
  exact (congrArg (fun t => (result? t 1, t)) hsettle).trans (congrArg (fun result => (result, lateAgain)) hresult)

/-- Another read of it looked for the byte. -/
def wanted (timeout : Option Duration) : Session Unit :=
  (unwanted.start 1 0 timeout).runFor slow (some 0) (fun _ => false) 1

/-- One millisecond later, after `n` events. -/
def wantedAgain (timeout : Option Duration) (n : Nat) : Session Unit :=
  { (wanted timeout).runFor slow (some 1) (fun _ => false) n with now := 1 }

theorem performAll_wantedAgain {timeout : Option Duration} {n : Nat} (hlooked : (wanted timeout).event? (some 0) = none)
    (hnow : (wanted timeout).now = 0)
    (hpassed : ((wanted timeout).runFor slow (some 1) (fun _ => false) n).event? (some 1) = none)
    (hrest : (wantedAgain timeout n).IsSettled) :
    unwanted.performAll slow [.start 1 0 timeout, .pass 1] = wantedAgain timeout n := by
  have hstart : unwanted.perform slow (.start 1 0 timeout) = wanted timeout :=
    run_eq_runFor slow (some 0) (fun _ => false) 1 (unwanted.start 1 0 timeout) (Or.inr hlooked)
  have hrun := run_eq_runFor slow (some 1) (fun _ => false) n (wanted timeout) (Or.inr hpassed)
  have hpass : (wanted timeout).passUntil slow ((wanted timeout).now + 1) = wantedAgain timeout n := by
    rw [passUntil, hnow, Nat.zero_add, hrun]
    rfl
  have hall : unwanted.performAll slow [.start 1 0 timeout, .pass 1] =
    ((unwanted.perform slow (.start 1 0 timeout)).carryOut slow (.pass 1)).settle slow := rfl
  rw [hall, hstart]
  exact (congrArg (settle slow) hpass).trans (settle_of_isSettled hrest)

/-- Another read waits one millisecond for the byte, with its owner or in the background, or is given up after one. The
    source answers after five, and nobody can tell then that there was such a read. -/
theorem unwanted_byte_comes_as_ever :
    (unwanted.read slow 1 0 (some (.ofMillis 1)) = (some (.error (.timeout 0 1)), lateAgain) ∧
      Indistinct slow unwanted 1 (lateAgain.performAll slow [.pass 4, .read 1 0 none])
        ((unwanted.passUntil slow 1).performAll slow [.pass 4, .read 1 0 none])) ∧
    Indistinct slow unwanted 1 ((wantedAgain (some (.ofMillis 1)) 2).performAll slow [.pass 4, .close])
      ((unwanted.passUntil slow 1).performAll slow [.pass 4, .close]) ∧
    Indistinct slow unwanted 1 (((wantedAgain none 0).perform slow (.abandon 1)).performAll slow [.pass 4, .read 1 0 none])
      ((unwanted.passUntil slow 1).performAll slow [.pass 4, .read 1 0 none]) := by
  have hnew : IsNew (onStorage (σ := Unit) oneByte (Bytes.ofFn 1 fun _ => 0) 0) := ⟨_, _, _, _, _, _, _, _, _, rfl, rfl⟩
  have hidle : ∀ r, .read r ∈ unwanted.tasks → (Task.read r).isOver = true := by
    intro r hr
    obtain rfl := Task.read.inj (List.mem_singleton.mp (show Task.read r ∈ [_] from hr))
    rfl
  have hbehind : unwanted.performAll slow [.start 1 0 (some (.ofMillis 1)), .pass 1] =
    wantedAgain (some (.ofMillis 1)) 2 := performAll_wantedAgain rfl rfl rfl rfl
  have hattempts : (wantedAgain (some (.ofMillis 1)) 2).attempts = 1 := rfl
  have hbefore : unwanted.performAll slow [.start 1 0 none, .pass 1] = wantedAgain none 0 :=
    performAll_wantedAgain rfl rfl rfl rfl
  obtain ⟨hread, hshort⟩ := late_read_leaves_no_trace hnew weaves_unwanted rfl hidle
  obtain ⟨-, hlong⟩ := late_read_leaves_no_trace hnew weaves_unwanted rfl hidle
  obtain ⟨hlate, -⟩ := hshort [1] _ hbehind.symm hattempts
  obtain ⟨-, hgiven⟩ := hlong [1] _ hbefore.symm rfl
  exact ⟨⟨read_lateAgain, hread 0 1 lateAgain read_lateAgain rfl [.pass 4, .read 1 0 none]⟩,
    hlate 0 1 rfl [.pass 4, .close], hgiven rfl [.pass 4, .read 1 0 none]⟩

end Session
end ReadAhead
