import ReadAhead.Proofs.Session.Short
import ReadAhead.Proofs.Session.Tasks

/-! Bytes that are there are served at once. An open ring never holds bytes without a feed in the slot, unless a
    task waits for the feed to stop that brought them (`Minded`); and where the feed in the slot has stopped, the
    ring is marked at its end. So when nobody can take a step, a read of bytes that are all in the window finds
    the feed fit to serve it, whatever became of that, and is served in its first turn (`ReadTurn.served_of_resident`).
    Nothing else happens to the stream then (`Kept`). -/

namespace ReadAhead
namespace Session
variable {σ : Type} {origin : Origin σ} {terms : Nat → Origin.Terms} {may : Session σ → Act → Prop}
  {s s₀ t u : Session σ} {i last : Nat} {r : Reading} {d : Delivery}

/-! ### Bytes and feeds -/

/-- An open ring that holds bytes has a feed in the slot, or a task waits for the feed to stop that brought them. -/
def Minded (s : Session σ) : Prop :=
  s.slot = none → s.ring.isClosed = false → s.ring.len = 0 ∨ ∃ x ∈ s.tasks, x.old?.isSome = true

theorem minded_of_slot (h : t.slot.isSome = true) : t.Minded := by
  intro hslot
  rw [hslot] at h
  cases h

theorem minded_of_closed (h : t.ring.isClosed = true) : t.Minded := by
  intro _ hopen
  cases h.symm.trans hopen

theorem Minded.rering {woke : Bool} (h : s.Minded) (ht : Reringed s t woke)
    (hlen : s.slot = none → t.ring.len = s.ring.len) : t.Minded := by
  intro hslot hopen
  rw [ht.slot] at hslot
  have hstill : s.ring.isClosed = false := by
    cases hshut : s.ring.isClosed with
    | false => rfl
    | true => cases (ht.shut hshut).symm.trans hopen
  rw [hlen hslot]
  refine (h hslot hstill).imp_right ?_
  rintro ⟨x, hx, hold⟩
  obtain ⟨y, hy, hsame⟩ := told_of_old? ht.tasks hx
  exact ⟨y, hy, by rw [hsame, hold]⟩

/-- A feed outside the slot was told to stop, and puts nothing into the ring any more. -/
theorem Minded.feedStep {k : Nat} {f : Feed σ} (h : s.Minded) (hkept : s.Tended) (hk : s.feeds[k]? = some f)
    (hr : f.isReady s.now = true) : (s.feedStep origin k).Minded := by
  refine h.rering (reringed_feedStep hkept.ring hk hr) fun hslot => ?_
  have hc : f.cancelled = true := by
    rcases hkept.stray k f hk with hserves | hc
    · rw [hslot] at hserves
      cases hserves
    · exact hc
  rw [ring_feedStep hk, Feed.advance_of_cancelled hc hr]
  exact Ring.len_finish s.ring

theorem Restarted.minded (hr : Restarted origin s i r t) : t.Minded := by
  cases hr with
  | shut hshut => exact minded_of_closed hshut
  | refused =>
    intro _ _
    left
    rw [finish_eq, ring_endTask, ring_note, ring_rebound]
    rfl
  | connected _ _ hlook =>
    refine minded_of_slot ?_
    rw [hlook.slot, slot_joined]
    rfl

theorem Orderly.minded_readTurn (h : s.Orderly) (hi : s.tasks[i]? = some (.read r)) (ht : ReadTurn origin s i r t) :
    t.Minded := by
  have hlt : i < s.tasks.length := (List.getElem?_eq_some_iff.mp hi).1
  cases ht with
  | closed _ hc => exact minded_of_closed (h.shut hc)
  | @dismiss old => exact fun _ _ => Or.inr ⟨_, List.mem_of_getElem? (List.getElem?_set_self hlt), rfl⟩
  | restart _ hr => exact hr.minded
  | look hlast hl =>
    refine minded_of_slot ?_
    rw [hl.slot]
    exact h.slot_of_look hi hlast
  | late hp => exact minded_of_slot (h.waiting hi hp).1

/-- The owner keeps it that way unless it gives up a read that waits for a feed to stop. -/
theorem Minded.act {a : Act} (h : s.Minded) (ha : s.Patient a) : (s.act a).Minded := by
  have hpush : ∀ {task : Task} {turns : List Nat}, Minded { s with tasks := s.tasks ++ [task], turns } := by
    intro task turns hslot hopen
    refine (h hslot hopen).imp_right ?_
    rintro ⟨x, hx, hold⟩
    exact ⟨x, List.mem_append_left _ hx, hold⟩
  cases a with
  | start len position timeout =>
    simp only [Session.act, Session.start]
    repeat' split
    all_goals exact hpush
  | abandon i =>
    simp only [Session.act, Session.abandon]
    split
    · rename_i r hi
      split
      · exact h
      · intro hslot hopen
        refine (h hslot hopen).imp_right ?_
        rintro ⟨x, hx, hold⟩
        rcases mem_set_of_mem hi hx (.read { r with phase := .abandoned }) with hmem | rfl
        · exact ⟨x, hmem, hold⟩
        · rw [ha i _ rfl hi] at hold
          cases hold
    · exact h
  | close =>
    simp only [Session.act, Session.startClose]
    split
    · exact hpush
    · exact minded_of_closed (isClosed_expire s)
  | letGo => exact h

theorem Minded.weave (h : s.Minded) (horderly : s.Orderly) (hclosing : ∀ c, .close c ∈ s.tasks → s.ring.isClosed = true)
    (hstep : Weave origin Patient s t) : t.Minded := by
  cases horderly.stepCase hstep with
  | feed hk hr => exact h.feedStep horderly.toTended hk hr
  | read _ hi hturn => exact horderly.minded_readTurn hi hturn
  | close _ hi =>
    refine minded_of_closed ?_
    rw [isClosed_closeStep]
    exact hclosing _ (List.mem_of_getElem? hi)
  | expire => exact minded_of_closed (isClosed_expire s)
  | wait => exact h
  | act ha => exact h.act ha

theorem isClosed_of_closing (hnew : IsNew s₀) (hs : Weaves origin may s₀ s) :
    ∀ c, .close c ∈ s.tasks → s.ring.isClosed = true := by
  induction hs with
  | refl =>
    intro c hc
    rw [hnew.tasks_eq_nil] at hc
    cases hc
  | tail hsu hstep ih =>
    intro c hc
    have horderly := hnew.orderly.weaves hsu
    obtain ⟨j, hj⟩ := List.mem_iff_getElem?.mp hc
    rcases (horderly.taskStep hstep).back hj with ⟨x, hx, hsame, -⟩ | ⟨-, ⟨r, timeout, hread, -⟩ | ⟨-, hshut⟩⟩
    · cases x with
      | read r => cases hsame
      | close c' => exact horderly.isClosed_weave (ih c' (List.mem_of_getElem? hx)) hstep
    · cases hread
    · exact hshut

theorem minded_of_weaves (hnew : IsNew s₀) (hs : Weaves origin Patient s₀ s) : s.Minded := by
  induction hs with
  | refl =>
    obtain ⟨node, url, size, tier, readTimeout, maxReadTimeout, scratch, storage, now, -, rfl⟩ := hnew
    exact fun _ _ => Or.inl rfl
  | tail hsu hstep ih => exact ih.weave (hnew.orderly.weaves hsu) (isClosed_of_closing hnew hsu) hstep

/-! ### Reads of bytes that are there -/

/-- The feed in the slot can serve a read whose bytes have all been written, whatever became of the feed. -/
theorem Sound.isStale_eq_false (h : Sound origin terms s) (hslot : s.slot.isSome = true) (hopen : s.ring.isClosed = false)
    (hlow : s.ring.start ≤ r.position) (hhigh : r.position < s.reach)
    (hwritten : min (s.wantedEnd r) s.reach ≤ s.ring.writePosition) : s.isStale r = false := by
  obtain ⟨k, hk⟩ := Option.isSome_iff_exists.mp hslot
  obtain ⟨f, -, hserves⟩ := h.serving k hk
  have hstop := (hserves.fills hopen).2.stop
  simp only [isStale, hk, Option.isNone_some, Bool.false_or, Bool.or_eq_false_iff, decide_eq_false_iff_not]
  refine ⟨⟨Nat.not_lt.mpr hlow, Nat.not_le.mpr hhigh⟩, ?_⟩
  -- If the feed has stopped, it stopped where it had written up to.
  rw [hstop]
  split
  · rename_i stop hmark
    split at hmark
    · obtain rfl := Option.some.inj hmark
      exact decide_eq_false (Nat.not_lt.mpr hwritten)
    · cases hmark
  · rfl

/-- The first turn of a read that its feed can serve and whose last byte is there. -/
theorem ReadTurn.served_of_resident (hring : s.ring.Sound) (hp : r.phase = .queued) (hopen : s.closed = false)
    (hstale : s.isStale r = false) (hres : s.ring.isResident (s.lastWanted r) = true) (ht : ReadTurn origin s i r t) :
    ∃ d, Served s i r (s.lastWanted r) d t := by
  obtain ⟨hgo, -⟩ := (Ring.isResident_iff hring).mp hres
  have hthere := Ring.availability_of_resident hring hres
  cases ht with
  | closed _ hc => cases hopen.symm.trans hc
  | dismiss _ _ hno => cases hstale.symm.trans hno
  | restart hold =>
    rcases hold with ⟨-, -, hslot⟩ | ⟨old, hq, -⟩
    · have hsome := slot_of_isStale hstale
      rw [hslot] at hsome
      cases hsome
    · cases hp.symm.trans hq
  | look hlast hl =>
    rcases hlast with ⟨-, -, -, rfl⟩ | hq
    · cases hl with
      | closed hc => cases hopen.symm.trans hc
      | shut _ hshut => cases hgo.symm.trans hshut
      | served _ hfirst henough htaken => exact ⟨_, hfirst, henough, ⟨_, htaken, rfl⟩, rfl⟩
      | short _ _ _ _ hlast => cases hres.symm.trans hlast
      | late _ hpending => cases hthere.symm.trans hpending
      | waits _ hpending => cases hthere.symm.trans hpending
    · cases hp.symm.trans hq
  | late hq => cases hp.symm.trans hq

/-! ### What happens then -/

theorem same_setRing (s : Session σ) (ring : Ring) (woke : Bool) {k : Nat} {f : Feed σ} (hk : s.feeds[k]? = some f) :
    ∃ g, (s.setRing ring woke).feeds[k]? = some g ∧ f.Same g := by
  rw [feeds_setRing, List.getElem?_map, hk]
  refine ⟨_, rfl, ?_⟩
  split
  · exact f.same_wake
  · exact .refl f

/-- No step of a feed tells one to stop. -/
theorem same_feedStep {j k : Nat} {f : Feed σ} (origin : Origin σ) (hring : s.ring.Sound) (hready : s.feedReady j = true)
    (hk : s.feeds[k]? = some f) : ∃ g, (s.feedStep origin j).feeds[k]? = some g ∧ f.Same g := by
  obtain ⟨f', hj, hr⟩ := exists_of_feedReady hready
  by_cases hjk : j = k
  · subst hjk
    obtain rfl := Option.some.inj (hj.symm.trans hk)
    exact ⟨_, getElem?_feedStep hj origin, Feed.same_advance hring origin hr⟩
  · rw [feedStep_eq hj, feeds_setFeed, List.getElem?_set_ne hjk]
    exact same_setRing s _ _ hk

/-- Read `i` has got `d`, and between `s` and `t` no time passed, no connection was attempted, no feed was started or
    told to stop, and the one in the slot stayed there. -/
structure Kept (s t : Session σ) (i : Nat) (d : Delivery) : Prop where
  result : t.result? i = some (.ok d)
  now : t.now = s.now
  attempts : t.attempts = s.attempts
  slot : t.slot = s.slot
  feeds : t.feeds.length = s.feeds.length
  same : ∀ (k : Nat) (f : Feed σ), s.feeds[k]? = some f → ∃ g, t.feeds[k]? = some g ∧ f.Same g

theorem Served.kept (hlt : i < s.tasks.length) (h : Served s i r last d t) : Kept s t i d := by
  obtain ⟨left, -, rfl⟩ := h.taken
  refine ⟨?_, ?_, ?_, ?_, ?_, fun k f hk => ?_⟩
  · rw [finish_eq, result?_endTask (by simpa [tasks_setRing] using hlt)]
    rfl
  · rw [finish_eq, now_endTask, now_note, now_setRing]
  · rw [finish_eq, attempts_endTask, attempts_note, attempts_setRing]
  · rw [finish_eq, slot_endTask, slot_note, slot_setRing]
  · rw [finish_eq, feeds_endTask, feeds_note, feeds_setRing, List.length_map]
  · rw [finish_eq, feeds_endTask, feeds_note]
    exact same_setRing s left true hk

theorem Kept.feedStep {k : Nat} (h : Kept s t i d) (hring : t.ring.Sound) (hready : t.feedReady k = true) :
    Kept s (t.feedStep origin k) i d := by
  obtain ⟨f, hk, hr⟩ := exists_of_feedReady hready
  have ht : Reringed t (t.feedStep origin k) _ := reringed_feedStep hring hk hr
  have hmove : t.CanMove (.feed k) := hready
  refine ⟨result?_of_over (fun _ => over_move hmove) h.result, (now_move origin t (.feed k)).trans h.now,
    ht.attempts.trans h.attempts, ht.slot.trans h.slot, (quiet_feedStep hready).feeds.trans h.feeds, fun j g hj => ?_⟩
  obtain ⟨g', hj', hsame⟩ := h.same j g hj
  obtain ⟨g'', hj'', hsame'⟩ := same_feedStep origin hring hready hj'
  exact ⟨g'', hj'', hsame.trans hsame'⟩

/-- Where nobody stands in line and the owner holds the stream, only the feeds go on. -/
theorem Kept.goes (h : Kept s t i d) (hring : t.ring.Sound) (hturns : t.turns = []) (hheld : t.held = true)
    (hgoes : Relation.ReflTransGen (Goes origin) t u) : Kept s u i d := by
  suffices hall : Kept s u i d ∧ u.ring.Sound ∧ u.turns = [] ∧ u.held = true from hall.1
  induction hgoes with
  | refl => exact ⟨h, hring, hturns, hheld⟩
  | @tail v w _ hstep ih =>
    obtain ⟨hkept, hsound, hnobody, hstill⟩ := ih
    obtain ⟨m, hm, rfl⟩ := hstep
    cases m with
    | feed k =>
      obtain ⟨f, hk, hr⟩ := exists_of_feedReady hm
      have ht : Reringed v (v.feedStep origin k) _ := reringed_feedStep hsound hk hr
      exact ⟨hkept.feedStep hsound hm, ht.sound, ht.turns.trans hnobody, (held_move origin v (.feed k)).trans hstill⟩
    | task j =>
      obtain ⟨hhead, -⟩ := hm
      rw [hnobody] at hhead
      cases hhead
    | stream =>
      simp only [CanMove, isForsaken, hstill] at hm
      cases hm

/-! ### Reads that are started in a settled session -/

def reading (s : Session σ) (len position : Nat) (timeout : Option Duration) : Reading :=
  ⟨len, position, s.stream.waitFor timeout, s.now + (s.stream.waitFor timeout).millisUp, .queued⟩

/-- The session with one more read, which stands behind everybody else. -/
def join (s : Session σ) (r : Reading) : Session σ :=
  { s with tasks := s.tasks ++ [.read r], turns := s.turns ++ [s.tasks.length] }

theorem start_eq_join {len position : Nat} (hopen : s.closed = false) (hlen : 0 < len) (hin : position < s.stream.size)
    (timeout : Option Duration) : s.start len position timeout = s.join (s.reading len position timeout) := by
  unfold Session.start
  simp only
  rw [if_neg (by simp [hopen]), if_neg (Nat.not_le.mpr hin), if_neg (Nat.ne_of_gt hlen)]
  rfl

theorem getElem?_join (s : Session σ) (r : Reading) : (s.join r).tasks[s.tasks.length]? = some (.read r) :=
  List.getElem?_concat_length

theorem canMove_join (hturns : s.turns = []) (hp : r.phase = .queued) : (s.join r).CanMove (.task s.tasks.length) := by
  refine ⟨?_, ?_⟩
  · rw [join, hturns]
    rfl
  · simp only [taskReady, getElem?_join, hp]

/-- Where nobody could take a step, now only the read can. -/
theorem eq_task_of_canMove_join {m : Mover} (hrest : s.IsSettled) (hturns : s.turns = []) (hp : r.phase = .queued)
    (hm : (s.join r).CanMove m) : m = .task s.tasks.length := by
  cases m with
  | feed k => exact absurd hm (hrest.not_canMove (.feed k))
  | task j =>
    obtain ⟨hhead, -⟩ := hm
    rw [join, hturns] at hhead
    exact congrArg Mover.task (Option.some.inj hhead).symm
  | stream =>
    have hgo : (Task.read r).isOver = false := by simp only [Task.isOver, hp]
    simp only [CanMove, isForsaken, join, List.all_append, List.all_cons, hgo, Bool.false_and, Bool.and_false] at hm
    cases hm

theorem next?_eq_of_forall {m : Mover} (hm : s.CanMove m) (honly : ∀ n, s.CanMove n → n = m) : s.next? = some m := by
  cases hnext : s.next? with
  | none => exact absurd hm (IsSettled.not_canMove hnext m)
  | some n => rw [honly n (canMove_of_next? hnext)]

theorem isOver_join (s : Session σ) (hp : r.phase = .queued) : (s.join r).isOver s.tasks.length = false := by
  rw [Session.isOver, getElem?_join, Option.all_some]
  simp only [Task.isOver, hp]

theorem isOver_of_result? {result : Except Failure Delivery} (h : s.result? i = some result) : s.isOver i = true := by
  rw [result?_eq] at h
  obtain ⟨x, hx, hresult⟩ := Option.bind_eq_some_iff.mp h
  rw [Session.isOver, hx, Option.all_some, Task.isOver_of_result? hresult]

theorem run_of_next? {limit : Option Nat} {enough : Session σ → Bool} {m : Mover} (hmore : enough s = false)
    (hnext : s.next? = some m) : s.run origin limit enough = (s.move origin m).run origin limit enough :=
  run_of_event? (e := .step m) hmore (by simp only [event?, hnext])

/-- Up to a time that has come, a session is run by steps of its tasks and feeds alone. -/
theorem goes_run {time : Nat} {enough : Session σ → Bool} (htime : time ≤ s.now) :
    Relation.ReflTransGen (Goes origin) s (s.run origin (some time) enough) := by
  generalize hlimit : some time = limit
  fun_induction run origin limit enough s with
  | case1 s henough => exact .refl
  | case2 s henough hnone => exact .refl
  | case3 s henough e he ih =>
    subst hlimit
    cases occurs he with
    | @step m hm => exact .head ⟨m, canMove_of_next? hm, rfl⟩ (ih (by rw [happen, now_move]; exact htime))
    | wait _ hahead _ hlimit =>
      have hle := hlimit time rfl
      omega

theorem goes_settle (origin : Origin σ) (s : Session σ) : Relation.ReflTransGen (Goes origin) s (s.settle origin) :=
  goes_run (Nat.le_refl _)

theorem Lined.eq_nil {tasks : List Task} {turns : List Nat} (h : Lined tasks turns)
    (hover : ∀ x ∈ tasks, x.isOver = true) : turns = [] := by
  refine List.eq_nil_iff_forall_not_mem.mpr fun j hj => ?_
  obtain ⟨x, hx, hgo⟩ := (h.mem_iff j).mp hj
  rw [hover x (List.mem_of_getElem? hx)] at hgo
  cases hgo

/-- In an open session in which nobody can take a step and no read is under way, nobody stands in line, and the owner
    holds the stream. -/
theorem Sound.idle (h : Sound origin terms s) (hrest : s.IsSettled) (hlive : s.ring.isClosed = false)
    (hover : ∀ x ∈ s.tasks, x.isOver = true) : s.turns = [] ∧ s.held = true := by
  refine ⟨h.lined.eq_nil hover, ?_⟩
  cases hheld : s.held with
  | true => rfl
  | false =>
    have hforsaken : s.isForsaken = true := by
      simp only [isForsaken, hheld, hlive, List.all_eq_true.mpr hover]
      rfl
    exact absurd hforsaken (hrest.not_canMove .stream)

theorem Minded.slot (h : s.Minded) (hsound : Sound origin terms s) (hrest : s.IsSettled) {p : Nat}
    (hres : s.ring.isResident p = true) : s.slot.isSome = true := by
  obtain ⟨hlive, hlow, hhigh⟩ := (Ring.isResident_iff hsound.ring).mp hres
  cases hslot : s.slot with
  | some k => rfl
  | none =>
    exfalso
    rcases h hslot hlive with hempty | ⟨x, hx, hold⟩
    · have hlen := Ring.writePosition_eq hsound.ring
      omega
    · rw [hsound.old?_of_isSettled hrest hx] at hold
      cases hold

/-- The turn of a read that joins where nobody stands in line, and whose bytes are all in the ring. -/
theorem Sound.served_join (h : Sound origin terms s) (hopen : s.closed = false) (hslot : s.slot.isSome = true)
    (hturns : s.turns = []) (hp : r.phase = .queued) (hsome : r.position < min (s.wantedEnd r) s.reach)
    (hresident : ∀ q, r.position ≤ q → q < min (s.wantedEnd r) s.reach → s.ring.isResident q = true) :
    ∃ d, Served (s.join r) s.tasks.length r (s.lastWanted r) d ((s.join r).move origin (.task s.tasks.length)) := by
  have hlast : s.lastWanted r = min (s.wantedEnd r) s.reach - 1 := by
    unfold lastWanted
    omega
  have hres : s.ring.isResident (s.lastWanted r) = true := by
    rw [hlast]
    exact hresident _ (by omega) (by omega)
  obtain ⟨hlive, -, hwritten⟩ := (Ring.isResident_iff h.ring).mp hres
  obtain ⟨-, hlow, -⟩ := (Ring.isResident_iff h.ring).mp (hresident _ (Nat.le_refl _) hsome)
  have hstale : s.isStale r = false := h.isStale_eq_false hslot hlive hlow (by omega) (by omega)
  have hwaits : ∀ last woken, r.phase = .waiting last woken → s.ring.start ≤ r.position ∧ r.position ≤ last := by
    intro last woken hq
    cases hp.symm.trans hq
  have hturn : ReadTurn origin (s.join r) s.tasks.length r _ :=
    readTurn_readStep h.ring (getElem?_join s r) (canMove_join hturns hp).2 hwaits
  rw [Session.move, Session.turn, getElem?_join]
  exact hturn.served_of_resident h.ring hp hopen hstale hres

/-- Once such a read is served, only the feeds go on. -/
theorem Served.kept_join (h : Served (s.join r) s.tasks.length r last d t) (hturns : s.turns = []) (hheld : s.held = true)
    (hgoes : Relation.ReflTransGen (Goes origin) t u) : Kept s u s.tasks.length d := by
  have hlt : s.tasks.length < (s.join r).tasks.length := (List.getElem?_eq_some_iff.mp (getElem?_join s r)).1
  have hkept : Kept s t s.tasks.length d := by
    obtain ⟨hresult, hnow, hattempts, hslot, hfeeds, hsame⟩ := h.kept hlt
    exact ⟨hresult, hnow, hattempts, hslot, hfeeds, hsame⟩
  obtain ⟨left, htaken, rfl⟩ := h.taken
  refine hkept.goes ?_ ?_ ?_ hgoes
  · rw [finish_eq, ring_endTask, ring_note, ring_setRing]
    exact htaken.sound
  · have hnobody : (s.join r).turns.erase s.tasks.length = [] := by
      rw [join, hturns, List.nil_append, List.erase_cons_head]
    rw [finish_eq]
    simpa only [endTask, turns_note, turns_setRing] using hnobody
  · rw [finish_eq, held_endTask, held_note, held_setRing]
    exact hheld

/-- What such a read comes to where nobody can take a step and no task is under way: it has its turn at once, whoever
    takes the steps, and also where the owner waits for it and lets the feeds go on. -/
theorem Sound.served_at_once {len position : Nat} (h : Sound origin (fun _ => .any) s) (hminded : s.Minded)
    (hrest : s.IsSettled) (hopen : s.closed = false) (hover : ∀ x ∈ s.tasks, x.isOver = true)
    (hsome : position < min (min (position + len) s.stream.size) s.reach)
    (hresident : ∀ q, position ≤ q → q < min (min (position + len) s.stream.size) s.reach →
      s.ring.isResident q = true) (timeout : Option Duration) :
    s.slot.isSome = true ∧ ∃ d, 0 < d.bytes.size ∧ d.bytes.size = min len (s.ring.writePosition - position) ∧
      (∀ j < d.bytes.size, d.bytes.data[j]? = s.ring.byte? (position + j)) ∧
      Comes origin (fun t => Kept s t s.tasks.length d) (s.start len position timeout) ∧
      (s.read origin len position timeout).1 = some (.ok d) ∧
      ∀ u, Relation.ReflTransGen (Goes origin) (s.read origin len position timeout).2 u → Kept s u s.tasks.length d := by
  have hslot := hminded.slot h hrest (hresident position (Nat.le_refl _) hsome)
  obtain ⟨hlive, -, hahead⟩ := (Ring.isResident_iff h.ring).mp (hresident position (Nat.le_refl _) hsome)
  obtain ⟨hturns, hheld⟩ := h.idle hrest hlive hover
  have hlen : 0 < len := by omega
  have hstart := start_eq_join hopen hlen (show position < s.stream.size by omega) timeout
  obtain ⟨d, hserved⟩ := h.served_join (r := s.reading len position timeout) hopen hslot hturns rfl hsome hresident
  have hcan : (s.join (s.reading len position timeout)).CanMove (.task s.tasks.length) := canMove_join hturns rfl
  have honly := fun m => eq_task_of_canMove_join (m := m) hrest hturns (r := s.reading len position timeout) rfl
  have hkept : ∀ u, Relation.ReflTransGen (Goes origin) _ u → Kept s u s.tasks.length d := fun _ hgoes =>
    hserved.kept_join hturns hheld hgoes
  have hread : (s.start len position timeout).await origin s.tasks.length =
      ((s.join (s.reading len position timeout)).move origin (.task s.tasks.length)).settle origin := by
    rw [hstart, await, run_of_next? (isOver_join s rfl) (next?_eq_of_forall hcan honly),
      run_of_enough (isOver_of_result? (hkept _ .refl).result)]
  obtain ⟨left, htaken, -⟩ := hserved.taken
  have hsize : d.bytes.size = min len (s.ring.writePosition - position) := htaken.size
  refine ⟨hslot, d, ?_, hsize, htaken.byte, ?_, ?_, ?_⟩
  · rw [hsize]
    exact Nat.lt_min.mpr ⟨hlen, Nat.sub_pos_of_lt hahead⟩
  · rw [hstart]
    refine .intro (fun hsettled => absurd hcan (hsettled.not_canMove _)) fun t ht => ?_
    obtain ⟨m, hm, rfl⟩ := ht
    obtain rfl := honly m hm
    exact comes_of_isSettled fun u hu _ => hkept u hu
  · rw [Session.read, hread]
    exact (hkept _ (goes_settle origin _)).result
  · rw [Session.read, hread]
    exact fun u hu => hkept u ((goes_settle origin _).trans hu)

/-- Bytes are minded under an unhurried owner as well. -/
theorem minded_of_unhurried (hnew : IsNew s₀) (hs : Weaves origin Unhurried s₀ s) :
    Sound origin (fun _ => .any) s ∧ s.Minded := by
  have hfresh := hnew.sound origin fun _ => .any
  have hpatient := hfresh.patient_weaves hs
  exact ⟨hfresh.weaves (fun _ _ => id) hpatient, minded_of_weaves hnew hpatient⟩

/-- No closing is under way while the ring is open, so nobody is if no read is. -/
theorem isOver_of_reads (hnew : IsNew s₀) (hs : Weaves origin may s₀ s) (hlive : s.ring.isClosed = false)
    (hidle : ∀ r, .read r ∈ s.tasks → (Task.read r).isOver = true) : ∀ x ∈ s.tasks, x.isOver = true := by
  intro x hx
  cases x with
  | read r => exact hidle r hx
  | close c => cases hlive.symm.trans (isClosed_of_closing hnew hs c hx)

/-- A new stream, whose owner acts when nobody can take a step or lets no read go that waits for a feed to stop, comes
    to a settled session that is open and in which no read is under way. Let all bytes that a read could get there be
    in the ring, one at least. Then the read gets what is there from its position on at once, whatever its timeout and
    whatever became of the feed that brought the bytes: no time passes, no connection is attempted, no feed is started
    or told to stop, and the feed stays in the slot. It does so in whatever order the steps are taken, and also where
    the owner waits for it. -/
theorem resident_bytes_are_served_at_once {len position : Nat} (hnew : IsNew s₀) (hs : Weaves origin Unhurried s₀ s)
    (hrest : s.IsSettled) (hopen : s.closed = false) (hidle : ∀ r, .read r ∈ s.tasks → (Task.read r).isOver = true)
    (hsome : position < min (min (position + len) s₀.stream.size) (s.ring.start + s.ring.capacity))
    (hresident : ∀ q, position ≤ q → q < min (min (position + len) s₀.stream.size) (s.ring.start + s.ring.capacity) →
      s.ring.isResident q = true) (timeout : Option Duration) :
    s.slot.isSome = true ∧ ∃ d, 0 < d.bytes.size ∧ d.bytes.size = min len (s.ring.writePosition - position) ∧
      (∀ j < d.bytes.size, d.bytes.data[j]? = s.ring.byte? (position + j)) ∧
      Comes origin (fun t => Kept s t s.tasks.length d) (s.start len position timeout) ∧
      (s.read origin len position timeout).1 = some (.ok d) ∧
      Kept s (s.read origin len position timeout).2 s.tasks.length d := by
  obtain ⟨hsound, hminded⟩ := minded_of_unhurried hnew hs
  obtain ⟨hlive, -⟩ := (Ring.isResident_iff hsound.ring).mp (hresident position (Nat.le_refl _) hsome)
  rw [← stream_weaves hs] at hsome hresident
  obtain ⟨hslot, d, hpos, hsize, hbytes, hcomes, hread, hkept⟩ :=
    hsound.served_at_once hminded hrest hopen (isOver_of_reads hnew hs hlive hidle) hsome hresident timeout
  exact ⟨hslot, d, hpos, hsize, hbytes, hcomes, hread, hkept _ .refl⟩

/-- Whoever carries out commands is unhurried. So if all bytes that a read could get are in the ring after any of them,
    one at least, then a command to read gets them at once. -/
theorem perform_read_of_resident {len position : Nat} (hnew : IsNew s₀) {cs : List Command}
    (hs : s = s₀.performAll origin cs) (hopen : s.closed = false)
    (hidle : ∀ r, .read r ∈ s.tasks → (Task.read r).isOver = true)
    (hsome : position < min (min (position + len) s₀.stream.size) s.reach)
    (hresident : ∀ q, position ≤ q → q < min (min (position + len) s₀.stream.size) s.reach →
      s.ring.isResident q = true) (timeout : Option Duration) :
    ∃ d, d.bytes.size = min len (s.ring.writePosition - position) ∧
      (∀ j < d.bytes.size, d.bytes.data[j]? = s.ring.byte? (position + j)) ∧
      Kept s (s.perform origin (.read len position timeout)) s.tasks.length d := by
  obtain ⟨hreach, hrest⟩ := reaches_performAll origin cs hnew.isSettled
  rw [← hs] at hreach hrest
  have hweaves := unhurried_of_reaches hreach
  obtain ⟨hsound, hminded⟩ := minded_of_unhurried hnew hweaves
  obtain ⟨hlive, -⟩ := (Ring.isResident_iff hsound.ring).mp (hresident position (Nat.le_refl _) hsome)
  rw [← stream_weaves hweaves] at hsome hresident
  obtain ⟨-, d, -, hsize, hbytes, -, -, hkept⟩ :=
    hsound.served_at_once hminded hrest hopen (isOver_of_reads hnew hweaves hlive hidle) hsome hresident timeout
  exact ⟨d, hsize, hbytes, hkept _ (goes_settle origin _)⟩

/-- The first of two bytes is read. The feed has brought both, and stopped where the source ends. -/
def firstOfBoth : Session Nat :=
  ((((((twoBytesThrough 2).start 1 0 none).turn (.counting 2) 0).feedStep (.counting 2) 0).feedStep (.counting 2)
    0).feedStep (.counting 2) 0).turn (.counting 2) 0

theorem weaves_firstOfBoth : Weaves (.counting 2) Unhurried (twoBytesThrough 2) firstOfBoth := by
  have hstart : Weaves (.counting 2) Unhurried (twoBytesThrough 2) ((twoBytesThrough 2).start 1 0 none) :=
    .single (.act (a := .start 1 0 none) (Or.inl rfl))
  exact ((((hstart.tail (.move (m := .task 0) ⟨rfl, rfl⟩)).tail (.move (m := .feed 0) rfl)).tail
    (.move (m := .feed 0) rfl)).tail (.move (m := .feed 0) rfl)).tail (.move (m := .task 0) ⟨rfl, rfl⟩)

/-- Without any time to wait, and though its feed has stopped, the second byte is there. -/
theorem second_byte_is_there :
    (∃ f, firstOfBoth.current? = some f ∧ f.isStopped = true) ∧
      ∃ d, (firstOfBoth.read (.counting 2) 1 1 (some ⟨0⟩)).1 = some (.ok d) ∧ d.bytes.size = 1 ∧
        d.bytes.data[0]? = some 1 ∧ (firstOfBoth.read (.counting 2) 1 1 (some ⟨0⟩)).2.attempts = 1 := by
  refine ⟨⟨_, rfl, rfl⟩, ?_⟩
  have hnew : IsNew (twoBytesThrough 2) := ⟨_, _, _, _, _, _, _, _, _, rfl, rfl⟩
  obtain ⟨r, htasks, hover⟩ : ∃ r, firstOfBoth.tasks = [.read r] ∧ (Task.read r).isOver = true := ⟨_, rfl, rfl⟩
  have hidle : ∀ r', .read r' ∈ firstOfBoth.tasks → (Task.read r').isOver = true := by
    intro r' hr'
    rw [htasks, List.mem_singleton] at hr'
    exact hr' ▸ hover
  have hresident : ∀ q, 1 ≤ q → q < 2 → firstOfBoth.ring.isResident q = true := by
    intro q hlow hhigh
    obtain rfl : q = 1 := by omega
    rfl
  have hsome : 1 < min (min (1 + 1) (twoBytesThrough 2).stream.size)
      (firstOfBoth.ring.start + firstOfBoth.ring.capacity) := Nat.one_lt_two
  obtain ⟨-, d, -, hsize, hbytes, -, hread, hkept⟩ :=
    resident_bytes_are_served_at_once hnew weaves_firstOfBoth rfl rfl hidle hsome hresident (some ⟨0⟩)
  have hone : d.bytes.size = 1 := hsize
  exact ⟨d, hread, hone, hbytes 0 (by omega), hkept.attempts⟩

end Session
end ReadAhead
