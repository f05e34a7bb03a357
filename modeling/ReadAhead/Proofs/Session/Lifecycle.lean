import ReadAhead.Proofs.Session.Attribution
import ReadAhead.Proofs.Session.Turns

/-! The state that a stream shows is that of the last read that took its turn. What a turn comes to is noted in one of
    three places and a read that fails later notes nothing, but a read that waits has noted so, and whatever happens
    beside a turn leaves the note alone. So the note, the slot and what became of that read go together (`Stands`), as
    long as no read is given up that waits for a feed to stop. -/

namespace ReadAhead

/-- The read got bytes. -/
def Reading.HasBytes (r : Reading) : Prop := ∃ d, r.phase = .done (.ok d) ∧ 0 < d.bytes.size

namespace Session
variable {σ : Type} {origin : Origin σ} {may : Session σ → Act → Prop} {s s₀ t u : Session σ} {i last : Nat}
  {r : Reading} {turn : Option (Nat × Session σ)}

/-! ### Closings -/

theorem Weave.closed (h : Weave origin may s t) (hc : s.closed = true) : t.closed = true := by
  cases h with
  | @move m _ => exact (spares_move origin s m).choose_spec.closed.trans hc
  | wait => exact hc
  | act => exact (quiet_act _ s).closed hc

theorem Weave.open (h : Weave origin may s t) (hopen : t.closed = false) : s.closed = false := by
  cases hc : s.closed with
  | false => rfl
  | true => cases (h.closed hc).symm.trans hopen

/-- Among the tasks is a closing. -/
def HasClosing (s : Session σ) : Prop := ∃ c, .close c ∈ s.tasks

theorem hasClosing_iff : s.HasClosing ↔ none ∈ s.tasks.map Task.wanted? := by
  rw [HasClosing, List.mem_map]
  constructor
  · rintro ⟨c, hc⟩
    exact ⟨_, hc, rfl⟩
  · rintro ⟨x, hx, hno⟩
    cases x with
    | read r => cases hno
    | close c => exact ⟨c, hx⟩

theorem Orderly.hasClosing_weave (h : s.Orderly) (hs : s.HasClosing) (hstep : Weave origin may s t) : t.HasClosing := by
  obtain ⟨new, ht⟩ := (h.taskStep hstep).wanted
  rw [hasClosing_iff, ht]
  exact List.mem_append_left _ (hasClosing_iff.mp hs)

theorem Orderly.hasClosing_of_move {m : Mover} (h : s.Orderly) (hm : s.CanMove m) (ht : (s.move origin m).HasClosing) :
    s.HasClosing := by
  rw [hasClosing_iff] at ht ⊢
  obtain ⟨y, hy, hno⟩ := List.mem_map.mp ht
  obtain ⟨j, hj⟩ := List.mem_iff_getElem?.mp hy
  have hback : ∃ x, s.tasks[j]? = some x ∧ y.wanted? = x.wanted? := by
    rcases h.task_move hm hj with ⟨woke, hold⟩ | ⟨-, x, hx, -, honward⟩
    · obtain ⟨x, hx, rfl⟩ := Option.map_eq_some_iff.mp hold
      exact ⟨x, hx, by cases woke <;> simp⟩
    · exact ⟨x, hx, honward.wanted?⟩
  obtain ⟨x, hx, hsame⟩ := hback
  exact List.mem_map.mpr ⟨x, List.mem_of_getElem? hx, hsame ▸ hno⟩

theorem closed_act (a : Act) (s : Session σ) : (s.act a).closed = true ↔ s.closed = true ∨ a = .close := by
  cases a with
  | start len position timeout =>
    simp only [Session.act, Session.start]
    repeat' split
    all_goals simp
  | abandon i =>
    simp only [Session.act, Session.abandon]
    repeat' split
    all_goals simp
  | close =>
    simp only [Session.act, Session.startClose]
    split
    · simp_all
    · simp
  | letGo => simp [Session.act, Session.letGo]

theorem Orderly.hasClosing_act (h : s.Orderly) (a : Act) : (s.act a).HasClosing ↔ s.HasClosing ∨ a = .close := by
  constructor
  · rintro ⟨c, hc⟩
    cases a with
    | start len position timeout =>
      obtain ⟨r, -, -, -, htasks, -⟩ := tasks_start s len position timeout
      rw [Session.act, htasks, List.mem_append, List.mem_singleton] at hc
      rcases hc with hc | hc
      · exact Or.inl ⟨c, hc⟩
      · cases hc
    | abandon i =>
      simp only [Session.act, Session.abandon] at hc
      repeat' split at hc
      · exact Or.inl ⟨c, hc⟩
      · rcases mem_set_cases hc with he | hc
        · cases he
        · exact Or.inl ⟨c, hc⟩
      · exact Or.inl ⟨c, hc⟩
    | close => exact Or.inr rfl
    | letGo => exact Or.inl ⟨c, hc⟩
  · rintro (hs | rfl)
    · have hstep : TaskStep (fun _ _ => True) s (s.act a) := h.taskStep_act trivial
      obtain ⟨new, ht⟩ := hstep.wanted
      rw [hasClosing_iff, ht]
      exact List.mem_append_left _ (hasClosing_iff.mp hs)
    · simp only [Session.act, Session.startClose]
      split
      · exact ⟨_, List.mem_append_right _ (List.mem_singleton_self _)⟩
      · exact ⟨_, List.mem_append_right _ (List.mem_singleton_self _)⟩

/-- The stream is closed if it was told to close. -/
theorem closed_iff_hasClosing (hnew : IsNew s₀) (hs : Weaves origin may s₀ s) : s.closed = true ↔ s.HasClosing := by
  induction hs with
  | refl =>
    obtain ⟨node, url, size, tier, readTimeout, maxReadTimeout, scratch, storage, now, -, rfl⟩ := hnew
    refine iff_of_false nofun ?_
    rintro ⟨c, hc⟩
    cases hc
  | @tail s t hs hstep ih =>
    have horderly := hnew.orderly.weaves hs
    cases hstep with
    | @move m hm =>
      have hweave : Weave origin may s (s.move origin m) := .move hm
      rw [(spares_move origin s m).choose_spec.closed, ih]
      exact ⟨fun h => horderly.hasClosing_weave h hweave, horderly.hasClosing_of_move hm⟩
    | wait => exact ih
    | @act a _ => rw [closed_act, horderly.hasClosing_act, ih]

/-! ### Who holds the stream -/

theorem ReadTurn.isClosed_eq (ht : ReadTurn origin s i r t) : t.ring.isClosed = s.ring.isClosed := by
  cases ht with
  | restart _ hr =>
    cases hr with
    | shut => rfl
    | refused => rw [finish_eq, ring_endTask, ring_note, ring_rebound, Ring.isClosed_emptied]
    | connected _ _ hlook => rw [hlook.isClosed, ring_joined, Ring.isClosed_emptied]
  | look _ hl => exact hl.isClosed
  | closed => rfl
  | dismiss => rfl
  | late => rfl

/-- Only a stream that nobody holds gives up its ring without being told to close. -/
theorem Orderly.isClosed_of_move {m : Mover} (h : s.Orderly) (hm : s.CanMove m) (hheld : s.held = true)
    (hshut : (s.move origin m).ring.isClosed = true) : s.ring.isClosed = true := by
  cases m with
  | feed k =>
    obtain ⟨f, hk, hr⟩ := exists_of_feedReady hm
    rwa [Session.move, ring_feedStep hk, (Feed.worked_advance h.ring origin hr).isClosed] at hshut
  | task i =>
    obtain ⟨x, hi, -⟩ := (h.lined.mem_iff i).mp (List.mem_of_mem_head? hm.1)
    rw [Session.move, Session.turn, hi] at hshut
    cases x with
    | read r =>
      have hturn : ReadTurn origin s i r _ := h.readTurn hi hm.2
      exact hturn.isClosed_eq.symm.trans hshut
    | close c => exact (isClosed_closeStep s i c).symm.trans hshut
  | stream =>
    simp only [CanMove, isForsaken, hheld] at hm
    cases hm

theorem Weave.held (h : Weave origin may s t) (hheld : t.held = true) : s.held = true := by
  cases h with
  | @move m _ => rwa [held_move] at hheld
  | wait => exact hheld
  | @act a _ =>
    by_cases hkeep : a = .letGo
    · subst hkeep
      cases hheld
    · rwa [held_act hkeep] at hheld

theorem closed_of_held (hnew : IsNew s₀) (hs : Weaves origin may s₀ s) (hheld : s.held = true)
    (hshut : s.ring.isClosed = true) : s.closed = true := by
  induction hs with
  | refl =>
    obtain ⟨node, url, size, tier, readTimeout, maxReadTimeout, scratch, storage, now, -, rfl⟩ := hnew
    cases hshut
  | @tail s t hs hstep ih =>
    have horderly := hnew.orderly.weaves hs
    have hbefore := hstep.held hheld
    cases hstep with
    | @move m hm =>
      rw [(spares_move origin s m).choose_spec.closed]
      exact ih hbefore (horderly.isClosed_of_move hm hbefore hshut)
    | wait => exact ih hbefore hshut
    | @act a _ =>
      rcases steady_or_closes a s with hsteady | ⟨-, tasks, turns, he⟩
      · rw [hsteady.closed]
        exact ih hbefore (hsteady.ring ▸ hshut)
      · rw [he]

/-- Somebody holds the stream: its owner, or a task that is not over. -/
def IsHeld (s : Session σ) : Prop := s.held = true ∨ ∃ x ∈ s.tasks, x.isOver = false

/-- A settled session that somebody holds has given up its ring only if it was told to close. -/
theorem IsHeld.closed (h : s.IsHeld) (hnew : IsNew s₀) (hs : Weaves origin may s₀ s) (hrest : s.IsSettled)
    (hshut : s.ring.isClosed = true) : s.closed = true := by
  rcases h with hheld | ⟨x, hx, hgo⟩
  · exact closed_of_held hnew hs hheld hshut
  · -- A task that is not over in a settled session stands behind a read that waits, and reads wait for an open ring.
    exfalso
    have horderly := hnew.orderly.weaves hs
    obtain ⟨j, hj⟩ := List.mem_iff_getElem?.mp hx
    obtain ⟨i, -, hhead, -⟩ := horderly.lined.exists_head hj hgo
    obtain ⟨r, last, hi, hp, -⟩ := horderly.lined.exists_read_of_isSettled hrest hhead fun _ => horderly.freed hrest
    have hpending := ((hnew.reliable origin).weaves hs).alert r last (List.mem_of_getElem? hi) hp
    rw [Ring.availability, if_pos hshut] at hpending
    cases hpending

/-! ### What becomes of a turn -/

/-- Why a read has no bytes though it has a feed, or had one until it failed. -/
inductive Unserved (s : Session σ) (r : Reading) : Prop
  | waits {last : Nat} {woken : Bool} (hp : r.phase = .waiting last woken)
  | dropped (hp : r.phase = .abandoned)
  | late (hp : r.phase = .done (.error (lateness r))) (hd : r.deadline ≤ s.now)
  /-- The feed in the slot stopped before it brought any of its bytes. -/
  | left {f : Feed σ} (hp : r.phase = .done (.error (f.blame (f.start + f.copied)))) (hcurrent : s.current? = some f)
    (hstopped : f.isStopped = true)

/-- Since `u` the connection was refused that the read asked for. -/
def Refused (origin : Origin σ) (u s : Session σ) (r : Reading) : Prop :=
  ∃ cause, r.phase = .done (.error cause) ∧ s.attempts = u.attempts + 1 ∧
    origin.connect s.stream.url u.attempts (s.restartAt r) = .error cause

/-- Since `u` the read asked for no connection, or got it. -/
def Welcome (origin : Origin σ) (u s : Session σ) (r : Reading) : Prop :=
  s.attempts = u.attempts ∨ ∃ source, origin.connect s.stream.url u.attempts (s.restartAt r) = .ok source

theorem Welcome.not_refused (h : Welcome origin u s r) : ¬ Refused origin u s r := by
  rintro ⟨cause, -, hattempts, hconn⟩
  rcases h with hsame | ⟨source, hok⟩
  · omega
  · cases hconn.symm.trans hok

theorem Unserved.not_hasBytes (h : s.Unserved r) : ¬ r.HasBytes := by
  rintro ⟨d, hd, -⟩
  cases h with
  | waits hp => cases hp.symm.trans hd
  | dropped hp => cases hp.symm.trans hd
  | late hp => cases hp.symm.trans hd
  | left hp => cases hp.symm.trans hd

theorem Refused.not_hasBytes (h : Refused origin u s r) : ¬ r.HasBytes := by
  rintro ⟨d, hd, -⟩
  obtain ⟨cause, hp, -⟩ := h
  cases hp.symm.trans hd

/-- How a stream stands after the turn that read `r` took in `u`: what became of the read, whether a feed is in the
    slot, and what is noted. -/
inductive Stands (origin : Origin σ) (u s : Session σ) (r : Reading) : Prop
  | served (hbytes : r.HasBytes) (hslot : s.slot.isSome = true) (hmark : s.mark = .ready)
  | unserved (h : s.Unserved r) (hwelcome : Welcome origin u s r) (hslot : s.slot.isSome = true)
    (hmark : s.mark = .filling)
  | refused (h : Refused origin u s r) (hempty : s.ring.len = 0) (hbound : s.ring.start = s.restartAt r)
    (hslot : s.slot = none) (hmark : s.mark = .idle)
  | replacing {old : Nat} (hp : r.phase = .replacing old) (hattempts : s.attempts = u.attempts)

theorem Stands.of_waiting {woken : Bool} (h : Stands origin u s r) (hp : r.phase = .waiting last woken) :
    Welcome origin u s r ∧ s.slot.isSome = true ∧ s.mark = .filling := by
  cases h with
  | served hbytes =>
    obtain ⟨d, hd, -⟩ := hbytes
    cases hp.symm.trans hd
  | unserved _ hwelcome hslot hmark => exact ⟨hwelcome, hslot, hmark⟩
  | refused h =>
    obtain ⟨cause, hd, -⟩ := h
    cases hp.symm.trans hd
  | replacing hr => cases hp.symm.trans hr

theorem Stands.of_replacing {old : Nat} (h : Stands origin u s r) (hp : r.phase = .replacing old) :
    s.attempts = u.attempts := by
  cases h with
  | served hbytes =>
    obtain ⟨d, hd, -⟩ := hbytes
    cases hp.symm.trans hd
  | unserved h =>
    cases h with
    | waits hw => cases hp.symm.trans hw
    | dropped hw => cases hp.symm.trans hw
    | late hw => cases hp.symm.trans hw
    | left hw => cases hp.symm.trans hw
  | refused h =>
    obtain ⟨cause, hd, -⟩ := h
    cases hp.symm.trans hd
  | replacing _ hattempts => exact hattempts

theorem mark_note (hopen : s.closed = false) (mark : Mark) : (s.note mark).mark = mark := by
  simp [Session.note, hopen]

/-- A read that looks is served, or waits, or is late; or it is left by the feed in the slot. -/
theorem Looked.stands {t : Session σ} (hl : Looked s i r last t) (hring : s.ring.Sound) (hlt : i < s.tasks.length)
    (hopen : s.closed = false) (hlive : s.ring.isClosed = false) (hlen : 0 < r.len) (hslot : s.slot.isSome = true)
    (hwelcome : Welcome origin u s r)
    (hleft : ∀ stop, s.ring.availability last = .ok (.ended stop) →
      s.mark = .filling ∧ ∃ f, s.current? = some f ∧ f.isStopped = true ∧ stop = f.start + f.copied) :
    ∃ r', t.tasks[i]? = some (.read r') ∧ Stands origin u t r' := by
  cases hl with
  | closed hc => cases hopen.symm.trans hc
  | shut _ hshut => cases hlive.symm.trans hshut
  | @served _ hres _ bytes left ht =>
    refine ⟨_, List.getElem?_set_self ?_, .served ⟨_, rfl, ?_⟩ ?_ ?_⟩
    · rwa [tasks_note, tasks_setRing, List.length_map]
    · obtain ⟨-, -, hhigh⟩ := (Ring.isResident_iff hring).mp hres
      rw [ht.size]
      exact Nat.lt_min.mpr ⟨hlen, Nat.sub_pos_of_lt hhigh⟩
    · simpa using hslot
    · rw [finish_eq, mark_endTask, mark_note]
      rwa [closed_setRing]
  | @short stop _ hlive hstop hle hlast =>
    obtain ⟨hmark, f, hcurrent, hstopped, rfl⟩ := hleft stop (by
      rw [Ring.availability_of_open hlive, hlast, hstop]
      simp [hle])
    rw [fallShort_eq hcurrent, finish_eq]
    exact ⟨_, List.getElem?_set_self hlt, .unserved (.left rfl hcurrent hstopped) hwelcome hslot hmark⟩
  | late _ _ hd =>
    refine ⟨_, List.getElem?_set_self (by rwa [tasks_note]), .unserved (.late rfl ?_) ?_ ?_ ?_⟩
    · simpa using hd
    · simpa [Welcome, restartAt] using hwelcome
    · simpa using hslot
    · rw [finish_eq, mark_endTask, mark_note hopen]
  | waits =>
    refine ⟨_, List.getElem?_set_self (by rwa [tasks_note]), .unserved (.waits rfl) ?_ ?_ ?_⟩
    · simpa [Welcome, restartAt] using hwelcome
    · simpa using hslot
    · rw [mark_setTask, mark_note hopen]

/-- A read that replaces the feed is refused its connection, or looks. -/
theorem Restarted.stands {t : Session σ} (hr : Restarted origin s i r t) (hring : s.ring.Sound)
    (hlt : i < s.tasks.length) (hopen : s.closed = false) (hlive : s.ring.isClosed = false) (hlen : 0 < r.len)
    (hslot : s.slot = none) (hattempts : s.attempts = u.attempts) :
    ∃ r', t.tasks[i]? = some (.read r') ∧ Stands origin u t r' := by
  cases hr with
  | shut hshut => cases hlive.symm.trans hshut
  | @refused cause _ hconn =>
    refine ⟨_, List.getElem?_set_self (by simpa using hlt), .refused ⟨cause, rfl, ?_, ?_⟩ ?_ ?_ ?_ ?_⟩
    · simp [hattempts]
    · simpa [restartAt, ← hattempts] using hconn
    · rw [finish_eq, ring_endTask, ring_note, ring_rebound]
      rfl
    · rw [finish_eq, ring_endTask, ring_note, ring_rebound, Ring.start_emptied]
      simp [restartAt]
    · simpa using hslot
    · rw [finish_eq, mark_endTask, mark_note]
      rwa [closed_rebound]
  | @connected source _ _ hconn hlook =>
    refine hlook.stands ?_ (by simpa using hlt) (by simpa using hopen) (by simpa using hlive) hlen (by simp) ?_ ?_
    · rw [ring_joined]
      exact Ring.sound_emptied hring _
    · exact Or.inr ⟨source, by simpa [restartAt, ← hattempts] using hconn⟩
    · intro stop hend
      obtain ⟨-, -, hstop, -⟩ := Ring.stop_of_ended hend
      cases (stop_joined ..).symm.trans hstop

/-! ### Beside a turn -/

/-- Where the slot, the note and the attempts stay, and the feed in the slot once it has stopped, so does what became of
    the turn. -/
theorem Stands.keep (h : Stands origin u s r) (hslot : t.slot = s.slot) (hmark : t.mark = s.mark)
    (hattempts : t.attempts = s.attempts) (hstream : t.stream = s.stream) (hnow : s.now ≤ t.now)
    (hcurrent : ∀ f, s.current? = some f → f.isStopped = true → t.current? = some f)
    (hring : s.slot = none → t.ring.len = s.ring.len ∧ t.ring.start = s.ring.start) : Stands origin u t r := by
  cases h with
  | served hbytes hs hm => exact .served hbytes (hslot ▸ hs) (hmark.trans hm)
  | unserved h hw hs hm =>
    refine .unserved ?_ ?_ (hslot ▸ hs) (hmark.trans hm)
    · cases h with
      | waits hp => exact .waits hp
      | dropped hp => exact .dropped hp
      | late hp hd => exact .late hp (Nat.le_trans hd hnow)
      | left hp hf hstopped => exact .left hp (hcurrent _ hf hstopped) hstopped
    · rwa [Welcome, restartAt, hattempts, hstream]
  | refused h hempty hbound hs hm =>
    obtain ⟨hlen, hstart⟩ := hring hs
    refine .refused ?_ (hlen.trans hempty) ?_ (hslot.trans hs) (hmark.trans hm)
    · rwa [Refused, restartAt, hattempts, hstream]
    · rw [hstart, hbound, restartAt, restartAt, hstream]
  | replacing hp ha => exact .replacing hp (hattempts.trans ha)

/-- The read itself is told of a change of the ring. -/
theorem Stands.told (woke : Bool) (h : Stands origin u s r) :
    ∃ r', (if woke then (Task.read r).wake else .read r) = .read r' ∧ Stands origin u s r' := by
  cases woke with
  | false => exact ⟨r, rfl, h⟩
  | true =>
    cases hw : (Task.read r).isWaiting with
    | false => exact ⟨r, by simp [Task.wake_of_not_waiting hw], h⟩
    | true =>
      obtain ⟨r', last, w, he, hp⟩ := Task.exists_of_isWaiting hw
      obtain rfl := Task.read.inj he
      refine ⟨{ r with phase := .waiting last true }, by simp [Task.wake, hp], ?_⟩
      obtain ⟨hwelcome, hslot, hmark⟩ := h.of_waiting hp
      exact .unserved (.waits rfl) hwelcome hslot hmark

/-- How a stream stands after the last turn, if any read took one. -/
def Standing (origin : Origin σ) (s : Session σ) : Option (Nat × Session σ) → Prop
  | none => s.slot = none ∧ s.mark = .idle
  | some (i, u) => ∃ r, s.tasks[i]? = some (.read r) ∧ Stands origin u s r

theorem mark_feedStep {k : Nat} (s : Session σ) : (s.feedStep origin k).mark = s.mark := by
  cases hk : s.feeds[k]? with
  | none =>
    unfold Session.feedStep
    rw [hk]
  | some f => rw [feedStep_eq hk, mark_setFeed, mark_setRing]

theorem mark_act (a : Act) (s : Session σ) : (s.act a).mark = s.mark := by
  cases a with
  | start len position timeout =>
    simp only [Session.act, Session.start]
    repeat' split
    all_goals rfl
  | abandon i =>
    simp only [Session.act, Session.abandon]
    repeat' split
    all_goals rfl
  | close =>
    simp only [Session.act, Session.startClose]
    split
    · rfl
    · simp
  | letGo => rfl

/-- A feed that has stopped takes no step and hears of none. -/
theorem current?_feedStep {k : Nat} {f : Feed σ} (hready : s.feedReady k = true) (hcurrent : s.current? = some f)
    (hstopped : f.isStopped = true) : (s.feedStep origin k).current? = some f := by
  obtain ⟨g, hk, hr⟩ := exists_of_feedReady hready
  obtain ⟨j, hslot, hj⟩ := Option.bind_eq_some_iff.mp hcurrent
  have hkj : k ≠ j := by
    rintro rfl
    obtain rfl := Option.some.inj (hk.symm.trans hj)
    cases hstopped.symm.trans (Feed.isStopped_of_isReady hr)
  rw [feedStep_eq hk, current?, slot_setFeed, slot_setRing, hslot, Option.bind_some, feeds_setFeed,
    List.getElem?_set_ne hkj, feeds_setRing, List.getElem?_map, hj, Option.map_some, Feed.wake_of_isStopped hstopped,
    ite_self]

theorem Tended.feedStep_of_vacant {k : Nat} (h : s.Tended) (hready : s.feedReady k = true) (hslot : s.slot = none) :
    (s.feedStep origin k).ring.len = s.ring.len ∧ (s.feedStep origin k).ring.start = s.ring.start := by
  obtain ⟨f, hk, hr⟩ := exists_of_feedReady hready
  have hc : f.cancelled = true := by
    rcases h.stray k f hk with hserves | hc
    · cases hslot.symm.trans hserves
    · exact hc
  refine ⟨?_, ?_⟩
  · rw [ring_feedStep hk, Feed.advance_of_cancelled hc hr]
    exact Ring.len_finish s.ring
  · rw [ring_feedStep hk, (Feed.worked_advance h.ring origin hr).start]

theorem Standing.feedStep {k : Nat} (h : Standing origin s turn) (horderly : s.Orderly) (hready : s.feedReady k = true) :
    Standing origin (s.feedStep origin k) turn := by
  obtain ⟨f, hk, hr⟩ := exists_of_feedReady hready
  have ht : Reringed s (s.feedStep origin k) _ := reringed_feedStep horderly.ring hk hr
  match turn, h with
  | none, ⟨hslot, hmark⟩ => exact ⟨ht.slot.trans hslot, (mark_feedStep s).trans hmark⟩
  | some (i, u), ⟨r, hi, hstands⟩ =>
    obtain ⟨r', htold, hstands'⟩ := hstands.told (f.advance origin s.now s.ring).woke
    refine ⟨r', ?_, hstands'.keep ht.slot (mark_feedStep s) ht.attempts ht.stream (Nat.le_of_eq ?_) ?_ ?_⟩
    · rw [ht.tasks, List.getElem?_map, hi]
      exact congrArg some htold
    · exact (now_move origin s (.feed k)).symm
    · exact fun g hg hstopped => current?_feedStep hready hg hstopped
    · exact horderly.toTended.feedStep_of_vacant hready

/-- The owner leaves a task alone that it does not give up. -/
theorem task_act {a : Act} {x : Task} (hi : s.tasks[i]? = some x) (hkeep : a = .abandon i → x.isOver = true)
    (hsteady : Steady s (s.act a)) : (s.act a).tasks[i]? = some x := by
  have hpush : ∀ new : Task, (s.tasks ++ [new])[i]? = some x := fun new => getElem?_push.mpr (Or.inl hi)
  cases a with
  | start len position timeout =>
    obtain ⟨r, -, -, -, htasks, -⟩ := tasks_start s len position timeout
    rw [Session.act, htasks]
    exact hpush _
  | abandon j =>
    simp only [Session.act, Session.abandon]
    split
    · rename_i r hj
      split
      · exact hi
      · rename_i hgo
        have hne : j ≠ i := by
          rintro rfl
          obtain rfl := Option.some.inj (hi.symm.trans hj)
          exact hgo (hkeep rfl)
        rw [tasks_endTask, List.getElem?_set_ne hne, hi]
    · exact hi
  | close =>
    have hclosed : s.closed = true := hsteady.closed.symm.trans ((closed_act .close s).mpr (Or.inr rfl))
    simp only [Session.act, Session.startClose, hclosed, if_true]
    exact hpush _
  | letGo => exact hi

theorem Standing.wait {now : Nat} (h : Standing origin s turn) (hle : s.now ≤ now) :
    Standing origin { s with now } turn := by
  match turn, h with
  | none, h => exact h
  | some (i, u), ⟨r, hi, hstands⟩ =>
    exact ⟨r, hi, hstands.keep rfl rfl rfl rfl hle (fun _ hf _ => hf) fun _ => ⟨rfl, rfl⟩⟩

/-- What a patient owner does to a stream that stays open. -/
theorem Standing.act {a : Act} (h : Standing origin s turn) (hpatient : s.Patient a) (hsteady : Steady s (s.act a)) :
    Standing origin (s.act a) turn := by
  match turn, h with
  | none, ⟨hslot, hmark⟩ => exact ⟨hsteady.slot.trans hslot, (mark_act a s).trans hmark⟩
  | some (i, u), ⟨r, hi, hstands⟩ =>
    have hcurrent : (s.act a).current? = s.current? := by rw [current?, current?, hsteady.slot, hsteady.feeds]
    have hkeep : ∀ {r' : Reading}, Stands origin u s r' → Stands origin u (s.act a) r' := fun h =>
      h.keep hsteady.slot (mark_act a s) hsteady.attempts hsteady.stream (Nat.le_of_eq hsteady.now.symm)
        (fun f hf _ => hcurrent.trans hf) fun _ => by rw [hsteady.ring]; exact ⟨rfl, rfl⟩
    by_cases ha : a = .abandon i ∧ (Task.read r).isOver = false
    · obtain ⟨rfl, hgo⟩ := ha
      refine ⟨{ r with phase := .abandoned }, ?_, hkeep ?_⟩
      · simp only [Session.act, Session.abandon, hi, hgo, Bool.false_eq_true, if_false]
        exact List.getElem?_set_self (List.getElem?_eq_some_iff.mp hi).1
      · cases hstands with
        | served hbytes =>
          obtain ⟨d, hd, -⟩ := hbytes
          simp [Task.isOver, hd] at hgo
        | unserved _ hwelcome hslot hmark => exact .unserved (.dropped rfl) hwelcome hslot hmark
        | refused h =>
          obtain ⟨cause, hd, -⟩ := h
          simp [Task.isOver, hd] at hgo
        | replacing hp =>
          have hold := hpatient i _ rfl hi
          simp [Task.old?, hp] at hold
    · refine ⟨r, task_act hi (fun hgives => ?_) hsteady, hkeep hstands⟩
      cases hover : (Task.read r).isOver with
      | true => rfl
      | false => exact absurd ⟨hgives, hover⟩ ha

/-! ### Runs -/

/-- A read that waits and finds the ring marked finished was left by the feed in the slot, unless a read was given up
    that waited for a feed to stop. -/
theorem left_of_ended {woken : Bool} {stop : Nat} (hnew : IsNew s₀) (hs : Weaves origin Unhurried s₀ s)
    (hi : s.tasks[i]? = some (.read r)) (hp : r.phase = .waiting last woken)
    (hend : s.ring.availability last = .ok (.ended stop)) :
    ∃ f, s.current? = some f ∧ f.isStopped = true ∧ stop = f.start + f.copied := by
  have h : Reliable origin s := (hnew.reliable origin).weaves hs
  obtain ⟨hlive, -, hstop, -⟩ := Ring.stop_of_ended hend
  obtain ⟨hslot, -, -⟩ := h.waiting hi hp
  obtain ⟨k, hk⟩ := Option.isSome_iff_exists.mp hslot
  obtain ⟨f, hf, hbrings⟩ := h.supplied.serving k hk
  have hcurrent : s.current? = some f := by rw [current?, hk, Option.bind_some, hf]
  have hstopped : f.isStopped = true := by
    cases hgo : f.isStopped with
    | true => rfl
    | false => cases (stop_of_running hnew hs hcurrent hgo hlive).symm.trans hstop
  have hmark := h.marked.ended k f hk hf hstopped hlive
  refine ⟨f, hcurrent, hstopped, ?_⟩
  rw [← (hbrings hlive).written]
  exact Option.some.inj (hstop.symm.trans hmark)

/-- A read that takes its turn in `s`. -/
theorem ReadTurn.stands_of_queued (hturn : ReadTurn origin s i r t) (h : s.Orderly) (hi : s.tasks[i]? = some (.read r))
    (hp : r.phase = .queued) (hopen : s.closed = false) (hlive : s.ring.isClosed = false) :
    ∃ r', t.tasks[i]? = some (.read r') ∧ Stands origin s t r' := by
  have hlt : i < s.tasks.length := (List.getElem?_eq_some_iff.mp hi).1
  obtain ⟨hlen, hin⟩ := h.asked r (List.mem_of_getElem? hi) (by simp [Task.isOver, hp])
  cases hturn with
  | closed _ hc => cases hopen.symm.trans hc
  | dismiss => exact ⟨_, List.getElem?_set_self hlt, .replacing rfl rfl⟩
  | restart hold hr => exact hr.stands h.ring hlt hopen hlive hlen (h.slot_of_restart hi hold) rfl
  | look hlast hl =>
    rcases hlast with ⟨-, -, hstale, rfl⟩ | hq
    · refine hl.stands h.ring hlt hopen hlive hlen (slot_of_isStale hstale) (Or.inl rfl) fun stop hend => ?_
      -- The feed in the slot has not stopped short of what the read wants, or the read would replace it.
      obtain ⟨-, -, hstop, hle⟩ := Ring.stop_of_ended hend
      exact absurd (lastWanted_lt_stop hlen hin hstale hstop) (Nat.not_lt.mpr hle)
    · cases hp.symm.trans hq
  | late hq => cases hp.symm.trans hq

/-- A read that goes on with the turn that it took in `u`. -/
theorem ReadTurn.stands_of_underWay (hturn : ReadTurn origin s i r t) (h : s.Orderly)
    (hi : s.tasks[i]? = some (.read r)) (hover : (Task.read r).isOver = false) (hq : r.phase ≠ .queued)
    (hopen : s.closed = false) (hlive : s.ring.isClosed = false) (hstands : Stands origin u s r)
    (hleft : ∀ last stop, r.phase = .waiting last true → s.ring.availability last = .ok (.ended stop) →
      ∃ f, s.current? = some f ∧ f.isStopped = true ∧ stop = f.start + f.copied) :
    ∃ r', t.tasks[i]? = some (.read r') ∧ Stands origin u t r' := by
  have hlt : i < s.tasks.length := (List.getElem?_eq_some_iff.mp hi).1
  obtain ⟨hlen, -⟩ := h.asked r (List.mem_of_getElem? hi) hover
  cases hturn with
  | closed hp => exact absurd hp hq
  | dismiss hp => exact absurd hp hq
  | restart hold hr =>
    refine hr.stands h.ring hlt hopen hlive hlen (h.slot_of_restart hi hold) ?_
    rcases hold with ⟨hp, -⟩ | ⟨old, hp, -⟩
    · exact absurd hp hq
    · exact hstands.of_replacing hp
  | @look last _ hlast hl =>
    rcases hlast with ⟨hp, -⟩ | hp
    · exact absurd hp hq
    · obtain ⟨hwelcome, hslot, hmark⟩ := hstands.of_waiting hp
      exact hl.stands h.ring hlt hopen hlive hlen hslot hwelcome fun stop hend => ⟨hmark, hleft last stop hp hend⟩
  | late hp hd =>
    obtain ⟨hwelcome, hslot, hmark⟩ := hstands.of_waiting hp
    rw [hopen]
    exact ⟨_, List.getElem?_set_self hlt, .unserved (.late rfl hd) hwelcome hslot hmark⟩

/-- After whatever an owner does who gives up no read that waits for a feed to stop, an open stream stands as the last
    turn left it. -/
theorem LastTurn.standing (hnew : IsNew s₀) (h : LastTurn origin Unhurried s₀ turn s) (hopen : s.closed = false)
    (hlive : s.ring.isClosed = false) : Standing origin s turn := by
  induction h with
  | new =>
    obtain ⟨node, url, size, tier, readTimeout, maxReadTimeout, scratch, storage, now, -, rfl⟩ := hnew
    exact ⟨rfl, rfl⟩
  | @turn _ s t i h hturn ih =>
    have horderly := hnew.orderly.weaves h.weaves
    have hweave : Weave origin Unhurried s t := hturn.weave
    obtain ⟨r, hhead, hi, hp, rfl⟩ := hturn
    have hready : s.taskReady i = true := by simp only [taskReady, hi, hp]
    have hread : ReadTurn origin s i r (s.turn origin i) := by
      rw [Session.turn, hi]
      exact horderly.readTurn hi hready
    exact hread.stands_of_queued horderly hi hp (hweave.open hopen) (horderly.live hweave hlive)
  | @other turn s t h hstep hno ih =>
    have horderly := hnew.orderly.weaves h.weaves
    have hopen' := hstep.open hopen
    have hlive' := horderly.live hstep hlive
    have hs := ih hopen' hlive'
    cases hstep with
    | wait hle => exact hs.wait hle
    | @act a ha =>
      have hfresh := hnew.sound origin fun _ => .any
      have hsound := hfresh.weaves (fun _ _ => id) (hfresh.patient_weaves h.weaves)
      rcases steady_or_closes a s with hsteady | ⟨-, tasks, turns, he⟩
      · exact hs.act (hsound.patient ha) hsteady
      · rw [he] at hopen
        cases hopen
    | @move m hm =>
      cases m with
      | feed k => exact hs.feedStep horderly hm
      | stream => cases (isClosed_expire s).symm.trans hlive
      | task i =>
        obtain ⟨x, hi, hover⟩ := (horderly.lined.mem_iff i).mp (List.mem_of_mem_head? hm.1)
        cases x with
        | close c =>
          have hclosed := (closed_iff_hasClosing hnew h.weaves).mpr ⟨c, List.mem_of_getElem? hi⟩
          cases hclosed.symm.trans hopen'
        | read r =>
          have hq : r.phase ≠ .queued := fun hp => hno i ⟨r, hm.1, hi, hp, rfl⟩
          -- Whoever goes on with a turn is the last who took one.
          have hidle : ∀ x ∈ s₀.tasks, x.isUnderWay = false := by simp [hnew.tasks_eq_nil]
          obtain ⟨u, rfl⟩ := h.underWay hnew.orderly hidle hi (Task.isUnderWay_read.mpr ⟨hq, hover⟩)
          obtain ⟨r', hi', hstands⟩ := hs
          obtain rfl := Task.read.inj (Option.some.inj (hi'.symm.trans hi))
          have hread : ReadTurn origin s i r' (s.turn origin i) := by
            rw [Session.turn, hi]
            exact horderly.readTurn hi hm.2
          exact hread.stands_of_underWay horderly hi hover hq hopen' hlive' hstands fun last stop hp hend =>
            left_of_ended hnew h.weaves hi hp hend

/-- After commands as well, since whoever carries them out is unhurried. -/
theorem standing_performAll (hnew : IsNew s₀) (cs : List Command) (hopen : (s₀.performAll origin cs).closed = false)
    (hlive : (s₀.performAll origin cs).ring.isClosed = false) :
    ∃ turn, LastTurn origin Unhurried s₀ turn (s₀.performAll origin cs) ∧
      Standing origin (s₀.performAll origin cs) turn := by
  obtain ⟨hreach, -⟩ := reaches_performAll origin cs hnew.isSettled
  obtain ⟨turn, hturn⟩ := exists_lastTurn (unhurried_of_reaches hreach)
  exact ⟨turn, hturn, hturn.standing hnew hopen hlive⟩

/-! ### Reads that take no turn -/

/-- Task `i` of `t` is over and stands in line no more, and all else is as in `s`. -/
structure Unmoved (s t : Session σ) (i : Nat) : Prop extends Steady s t where
  held : t.held = s.held
  mark : t.mark = s.mark
  turns : t.turns = s.turns.erase i
  others : ∀ j, j ≠ i → t.tasks[j]? = s.tasks[j]?
  ended : t.Over i

theorem Unmoved.lifecycle (h : Unmoved s t i) : t.lifecycle = s.lifecycle := by
  rw [Session.lifecycle, Session.lifecycle, h.closed, h.mark]

/-- Nobody can take a step for it who could not before, unless it had the turn. -/
theorem Unmoved.isSettled (h : Unmoved s t i) (hlined : Lined s.tasks s.turns) (hrest : s.IsSettled)
    (hbehind : s.turns.head? ≠ some i) : t.IsSettled := by
  have hhead : t.turns.head? = s.turns.head? := by
    rw [h.turns]
    cases hturns : s.turns with
    | nil => rfl
    | cons x rest =>
      have hne : x ≠ i := fun he => hbehind (by rw [hturns, he]; rfl)
      rw [List.erase_cons_tail (by simpa using hne)]
      rfl
  cases hnext : t.next? with
  | none => exact hnext
  | some m =>
    have hm := canMove_of_next? hnext
    cases m with
    | feed k =>
      refine absurd ?_ (hrest.not_canMove (.feed k))
      simpa only [CanMove, feedReady, h.feeds, h.now] using hm
    | task j =>
      obtain ⟨hj, hready⟩ := hm
      rw [hhead] at hj
      have hji : j ≠ i := fun he => hbehind (he ▸ hj)
      refine absurd ⟨hj, ?_⟩ (hrest.not_canMove (.task j))
      simpa only [taskReady, hasStopped, h.others j hji, h.feeds, h.now] using hready
    | stream =>
      simp only [CanMove, isForsaken, h.held, h.ring, Bool.and_eq_true] at hm
      obtain ⟨⟨hheld, hall⟩, hopen⟩ := hm
      refine absurd ?_ (hrest.not_canMove .stream)
      simp only [CanMove, isForsaken, Bool.and_eq_true]
      refine ⟨⟨hheld, List.all_eq_true.mpr fun x hx => ?_⟩, hopen⟩
      cases hover : x.isOver with
      | true => rfl
      | false =>
        -- Whoever has the turn is still there.
        exfalso
        obtain ⟨j, hj⟩ := List.mem_iff_getElem?.mp hx
        obtain ⟨k, y, hfirst, -, hk, hgo⟩ := hlined.exists_head hj hover
        have hki : k ≠ i := fun he => hbehind (he ▸ hfirst)
        rw [← h.others k hki] at hk
        cases (List.all_eq_true.mp hall y (List.mem_of_getElem? hk)).symm.trans hgo

theorem getElem?_push_ne {tasks : List Task} {j : Nat} (hj : j ≠ tasks.length) (new : Task) :
    (tasks ++ [new])[j]? = tasks[j]? := by
  refine Option.ext fun x => ?_
  rw [getElem?_push]
  exact ⟨fun h => h.resolve_right fun hlast => hj hlast.1, Or.inl⟩

/-- A read of nothing, or from the end of the file on, is over as it starts. -/
theorem Orderly.unmoved_start {len position : Nat} (h : s.Orderly) (hnone : len = 0 ∨ s.stream.size ≤ position)
    (timeout : Option Duration) : Unmoved s (s.start len position timeout) s.tasks.length := by
  have herase : s.turns.erase s.tasks.length = s.turns :=
    List.erase_of_not_mem fun hmem => Nat.lt_irrefl _ (h.lined.lt_length hmem)
  have hends : ∀ result : Except Failure Delivery, ∀ r : Reading,
      Unmoved s { s with tasks := s.tasks ++ [.read { r with phase := .done result }] } s.tasks.length := by
    intro result r
    refine ⟨⟨rfl, rfl, rfl, rfl, rfl, rfl, rfl⟩, rfl, rfl, herase.symm, fun j hj => ?_, ?_⟩
    · exact getElem?_push_ne hj _
    · exact ⟨_, List.getElem?_concat_length, rfl⟩
  unfold Session.start
  simp only
  split
  · exact hends _ ⟨_, _, _, _, .queued⟩
  · split
    · exact hends _ ⟨_, _, _, _, .queued⟩
    · split
      · exact hends _ ⟨_, _, _, _, .queued⟩
      · rename_i hposition hlen
        exact absurd hnone (not_or.mpr ⟨hlen, hposition⟩)

/-- A read that is given up while it stands in line leaves the line. -/
theorem unmoved_abandon (hi : s.tasks[i]? = some (.read r)) (hp : r.phase = .queued) : Unmoved s (s.abandon i).2 i := by
  have hgo : (Task.read r).isOver = false := by simp only [Task.isOver, hp]
  simp only [Session.abandon, hi, hgo, Bool.false_eq_true, if_false]
  refine ⟨steady_endTask .., rfl, rfl, rfl, fun j hj => ?_, ?_⟩
  · rw [tasks_endTask, List.getElem?_set_ne (Ne.symm hj)]
  · exact ⟨_, List.getElem?_set_self (List.getElem?_eq_some_iff.mp hi).1, rfl⟩

/-! ### The state shown -/

theorem lifecycle_eq_closed : s.lifecycle = .closed ↔ s.closed = true := by
  unfold Session.lifecycle
  split
  · simp_all
  · split <;> simp_all

theorem lifecycle_of_open (hopen : s.closed = false) :
    (s.lifecycle = .idle ↔ s.mark = .idle) ∧ (s.lifecycle = .filling ↔ s.mark = .filling) ∧
      (s.lifecycle = .ready ↔ s.mark = .ready) := by
  unfold Session.lifecycle
  rw [hopen]
  cases s.mark <;> simp

/-- `P` holds of the read that was the last to take its turn, and of the session in which it did. -/
def OfLast (s : Session σ) (turn : Option (Nat × Session σ)) (P : Session σ → Reading → Prop) : Prop :=
  ∃ i u r, turn = some (i, u) ∧ s.tasks[i]? = some (.read r) ∧ P u r

theorem ofLast_iff {P : Session σ → Reading → Prop} (hi : s.tasks[i]? = some (.read r)) :
    s.OfLast (some (i, u)) P ↔ P u r := by
  constructor
  · rintro ⟨j, v, r', he, hj, h⟩
    obtain ⟨rfl, rfl⟩ := Prod.mk.inj (Option.some.inj he)
    obtain rfl := Task.read.inj (Option.some.inj (hi.symm.trans hj))
    exact h
  · exact fun h => ⟨i, u, r, rfl, hi, h⟩

/-- What is shown, and what the slot holds, follows from how the last turn left the stream. -/
theorem Standing.shown (h : Standing origin s turn) (hopen : s.closed = false)
    (hfreed : ∀ x ∈ s.tasks, x.old? = none) :
    (s.lifecycle = .idle ↔ s.slot = none) ∧
      (s.slot = none ↔ turn = none ∨ s.OfLast turn fun u r => Refused origin u s r) ∧
      (∀ i u r, turn = some (i, u) → s.tasks[i]? = some (.read r) → Refused origin u s r →
        s.ring.len = 0 ∧ s.ring.start = s.restartAt r) ∧
      (s.lifecycle = .ready ↔ s.OfLast turn fun _ r => r.HasBytes) ∧
      (s.lifecycle = .filling ↔ s.OfLast turn fun u r => s.Unserved r ∧ ¬ Refused origin u s r) := by
  obtain ⟨hidle, hfilling, hready⟩ := lifecycle_of_open hopen
  rw [hidle, hfilling, hready]
  match turn, h with
  | none, ⟨hslot, hmark⟩ =>
    have hno : ∀ P : Session σ → Reading → Prop, ¬ s.OfLast none P := by
      rintro P ⟨i, u, r, he, -⟩
      cases he
    simp [hslot, hmark, hno]
  | some (i, u), ⟨r, hi, hstands⟩ =>
    have hbound : (Refused origin u s r → s.ring.len = 0 ∧ s.ring.start = s.restartAt r) →
        ∀ i' u' r', some (i, u) = some (i', u') → s.tasks[i']? = some (.read r') → Refused origin u' s r' →
          s.ring.len = 0 ∧ s.ring.start = s.restartAt r' := by
      intro h i' u' r' he hi' href
      obtain ⟨rfl, rfl⟩ := Prod.mk.inj (Option.some.inj he)
      obtain rfl := Task.read.inj (Option.some.inj (hi.symm.trans hi'))
      exact h href
    simp only [ofLast_iff hi, reduceCtorEq, false_or]
    cases hstands with
    | served hbytes hslot hmark =>
      have hsome : s.slot ≠ none := Option.isSome_iff_ne_none.mp hslot
      have href : ¬ Refused origin u s r := fun h => h.not_hasBytes hbytes
      have hun : ¬ s.Unserved r := fun h => h.not_hasBytes hbytes
      exact ⟨by simp [hmark, hsome], by simp [hsome, href], hbound fun h => absurd h href, by simp [hmark, hbytes],
        by simp [hmark, hun]⟩
    | unserved hun hwelcome hslot hmark =>
      have hsome : s.slot ≠ none := Option.isSome_iff_ne_none.mp hslot
      have href := hwelcome.not_refused
      exact ⟨by simp [hmark, hsome], by simp [hsome, href], hbound fun h => absurd h href,
        by simp [hmark, hun.not_hasBytes], by simp [hmark, hun, href]⟩
    | refused href hempty hstart hslot hmark =>
      exact ⟨by simp [hmark, hslot], by simp [hslot, href], hbound fun _ => ⟨hempty, hstart⟩,
        by simp [hmark, href.not_hasBytes], by simp [hmark, href]⟩
    | replacing hp =>
      have hold := hfreed _ (List.mem_of_getElem? hi)
      simp [Task.old?, hp] at hold

/-- A new stream, whose owner acts when nobody can take a step or lets no read go that waits for a feed to stop, comes
    to a settled session, and somebody still holds the stream. It shows itself closed if it was told to close. Else it
    shows itself idle if no feed is in the slot: no read has taken a turn yet, or the last that did was refused its
    connection, and then the ring is empty and bound where a feed for that read starts. It shows itself ready if the last
    read that took its turn got bytes, and filling if that read waits, was given up while it waited, is late, or failed
    because the feed in the slot stopped. Reads of nothing, reads from the end of the file on, and reads that are given
    up before their turn change nothing. -/
theorem lifecycle_follows_last_turn (hnew : IsNew s₀) (hs : LastTurn origin Unhurried s₀ turn s) (hrest : s.IsSettled)
    (hheld : s.IsHeld) :
    (s.lifecycle = .closed ↔ s.HasClosing) ∧
      (¬ s.HasClosing →
        (s.lifecycle = .idle ↔ s.slot = none) ∧
        (s.slot = none ↔ turn = none ∨ s.OfLast turn fun u r => Refused origin u s r) ∧
        (∀ i u r, turn = some (i, u) → s.tasks[i]? = some (.read r) → Refused origin u s r →
          s.ring.len = 0 ∧ s.ring.start = s.restartAt r) ∧
        (s.lifecycle = .ready ↔ s.OfLast turn fun _ r => r.HasBytes) ∧
        (s.lifecycle = .filling ↔ s.OfLast turn fun u r => s.Unserved r ∧ ¬ Refused origin u s r)) ∧
      (∀ len position timeout, len = 0 ∨ s.stream.size ≤ position →
        Unmoved s (s.start len position timeout) s.tasks.length ∧ (s.start len position timeout).IsSettled) ∧
      ∀ i r, s.tasks[i]? = some (.read r) → r.phase = .queued →
        Unmoved s (s.abandon i).2 i ∧ (s.abandon i).2.IsSettled := by
  have hclosing := closed_iff_hasClosing hnew hs.weaves
  have horderly := hnew.orderly.weaves hs.weaves
  refine ⟨lifecycle_eq_closed.trans hclosing, fun hno => ?_, fun len position timeout hnone => ?_, fun i r hi hp => ?_⟩
  · have hopen : s.closed = false := by simpa [← hclosing] using hno
    have hlive : s.ring.isClosed = false := by
      cases hshut : s.ring.isClosed with
      | false => rfl
      | true => cases (hheld.closed hnew hs.weaves hrest hshut).symm.trans hopen
    have hfresh := hnew.sound origin fun _ => .any
    have hsound := hfresh.weaves (fun _ _ => id) (hfresh.patient_weaves hs.weaves)
    exact (hs.standing hnew hopen hlive).shown hopen fun x hx => hsound.old?_of_isSettled hrest hx
  · have hunmoved := horderly.unmoved_start hnone timeout
    refine ⟨hunmoved, hunmoved.isSettled horderly.lined hrest fun hhead => ?_⟩
    exact Nat.lt_irrefl _ (horderly.lined.lt_length (List.mem_of_mem_head? hhead))
  · have hunmoved := unmoved_abandon hi hp
    refine ⟨hunmoved, hunmoved.isSettled horderly.lined hrest fun hhead => ?_⟩
    exact hrest.not_canMove (.task i) ⟨hhead, by simp only [taskReady, hi, hp]⟩

/-- The read takes its turn, and then its feed asks the source. -/
theorem lastTurn_justAsked :
    LastTurn slow Unhurried (onStorage oneByte (Bytes.ofFn 1 fun _ => 0) 0)
      (some (0, (onStorage oneByte (Bytes.ofFn 1 fun _ => 0) 0).start 1 0 none)) justAsked := by
  have hstart : LastTurn slow Unhurried (onStorage oneByte (Bytes.ofFn 1 fun _ => 0) 0) none
      ((onStorage oneByte (Bytes.ofFn 1 fun _ => 0) 0).start 1 0 none) := by
    refine .other .new (.act (a := .start 1 0 none) (Or.inl rfl)) ?_
    rintro i ⟨r, hhead, -⟩
    cases hhead
  refine .other (hstart.turn ⟨_, rfl, rfl, rfl, rfl⟩) (.move (m := .feed 0) rfl) ?_
  rintro i ⟨r, hhead, hi, hp, -⟩
  obtain rfl := Option.some.inj hhead
  obtain rfl := Task.read.inj (Option.some.inj hi)
  cases hp

/-- While the source is asked for the byte, the stream is filling; and a read from the end on changes nothing. -/
theorem filling_while_asked :
    justAsked.lifecycle = .filling ∧ (justAsked.start 1 1 none).lifecycle = .filling := by
  have hnew : IsNew (onStorage (σ := Unit) oneByte (Bytes.ofFn 1 fun _ => 0) 0) := ⟨_, _, _, _, _, _, _, _, _, rfl, rfl⟩
  obtain ⟨-, hopen, hends, -⟩ := lifecycle_follows_last_turn hnew lastTurn_justAsked rfl (Or.inl rfl)
  have hno : ¬ justAsked.HasClosing := by
    rintro ⟨c, hc⟩
    obtain he | hnil := List.mem_cons.mp (show Task.close c ∈ [Task.read ⟨1, 0, .ofSeconds 1, 1000, .waiting 0 false⟩] from hc)
    · cases he
    · cases hnil
  obtain ⟨-, -, -, -, hfilling⟩ := hopen hno
  have hshown : justAsked.lifecycle = .filling := by
    refine hfilling.mpr ⟨0, _, _, rfl, rfl, .waits rfl, ?_⟩
    rintro ⟨cause, hp, -⟩
    cases hp
  obtain ⟨hunmoved, -⟩ := hends 1 1 none (Or.inr (Nat.le_refl 1))
  exact ⟨hshown, hunmoved.lifecycle.trans hshown⟩

end Session
end ReadAhead
