import ReadAhead.Proofs.Session.FitTurn
import ReadAhead.Proofs.Session.Step

/-! Every step keeps a session sound, so every session that a run comes to is (`Sound.reaches`). A sound
    session is one whose parts fit each other and in which no feed serves the stream while a task waits for
    one to stop. -/

namespace ReadAhead
namespace Session
variable {σ : Type} {origin : Origin σ} {terms : Nat → Origin.Terms} {s t : Session σ} {i : Nat}

/-- The parts of a session fit each other, and the slot is empty while a feed is on its way out. -/
structure Sound (origin : Origin σ) (terms : Nat → Origin.Terms) (s : Session σ) : Prop extends
    Fit origin terms s where
  vacated : ∀ x ∈ s.tasks, ∀ k, x.old? = some k → s.slot = none

theorem sound_onStorage {stream : Stream} {storage : ByteArray} (origin : Origin σ) (terms : Nat → Origin.Terms)
    (hsize : storage.size = stream.tier.capacity) (hmargin : stream.tier.margin < stream.tier.capacity) (now : Nat) :
    Sound origin terms (onStorage stream storage now) :=
  ⟨fit_onStorage origin terms hsize hmargin now, fun _ hx => nomatch hx⟩

/-- A new stream with nothing done yet, over any storage of the capacity of its ring. -/
def IsNew (s : Session σ) : Prop :=
  ∃ node url size tier readTimeout maxReadTimeout scratch storage now,
    storage.size = (Stream.of node url size tier readTimeout maxReadTimeout scratch).tier.capacity ∧
      s = onStorage (Stream.of node url size tier readTimeout maxReadTimeout scratch) storage now

theorem IsNew.tasks_eq_nil (h : IsNew s) : s.tasks = [] := by
  obtain ⟨node, url, size, tier, readTimeout, maxReadTimeout, scratch, storage, now, -, rfl⟩ := h
  rfl

theorem IsNew.feeds_eq_nil (h : IsNew s) : s.feeds = [] := by
  obtain ⟨node, url, size, tier, readTimeout, maxReadTimeout, scratch, storage, now, -, rfl⟩ := h
  rfl

theorem IsNew.slot_eq_none (h : IsNew s) : s.slot = none := by
  obtain ⟨node, url, size, tier, readTimeout, maxReadTimeout, scratch, storage, now, -, rfl⟩ := h
  rfl

theorem IsNew.margin_lt (h : IsNew s) : s.stream.tier.margin < s.stream.tier.capacity := by
  obtain ⟨node, url, size, tier, readTimeout, maxReadTimeout, scratch, storage, now, -, rfl⟩ := h
  simp only [onStorage, Stream.of, Tier.of]
  omega

theorem IsNew.sound (h : IsNew s) (origin : Origin σ) (terms : Nat → Origin.Terms) : Sound origin terms s := by
  have hmargin := h.margin_lt
  obtain ⟨node, url, size, tier, readTimeout, maxReadTimeout, scratch, storage, now, hsize, rfl⟩ := h
  exact sound_onStorage origin terms hsize hmargin now

theorem IsNew.isSettled (h : IsNew s) : s.IsSettled := by
  obtain ⟨node, url, size, tier, readTimeout, maxReadTimeout, scratch, storage, now, -, rfl⟩ := h
  exact isSettled_onStorage _ _ _

/-! ### Turns -/

theorem old?_of_mem_set {task : Task} (h : Lined s.tasks s.turns) (hhead : s.turns.head? = some i)
    (hnone : task.old? = none) : ∀ x ∈ s.tasks.set i task, x.old? = none :=
  h.all_set hhead (fun _ => Task.old?_of_isOver) (fun _ => Task.old?_of_isQueued) hnone

/-- If the task whose turn it is does not wait for a feed to stop, no task does. -/
theorem old?_of_mem {task : Task} (h : Lined s.tasks s.turns) (hhead : s.turns.head? = some i)
    (hi : s.tasks[i]? = some task) (hnone : task.old? = none) : ∀ x ∈ s.tasks, x.old? = none :=
  h.all hhead (fun _ => Task.old?_of_isOver) (fun _ => Task.old?_of_isQueued) hi hnone

/-- After a read has looked, no task waits for a feed to stop. -/
theorem Looked.old? {r : Reading} {last : Nat} (h : Lined s.tasks s.turns) (hhead : s.turns.head? = some i)
    (hl : Looked s i r last t) : ∀ x ∈ t.tasks, x.old? = none := by
  cases hl with
  | served =>
    intro x hx
    rw [finish_eq, tasks_endTask, tasks_note] at hx
    refine old?_of_mem_set (s := s.setRing _ true) ?_ ?_ rfl x hx
    · rw [tasks_setRing, turns_setRing]
      exact h.wake true
    · rw [turns_setRing, hhead]
  | late => exact fun x hx => old?_of_mem_set h hhead rfl x (by simpa using hx)
  | waits => exact fun x hx => old?_of_mem_set h hhead rfl x (by simpa using hx)
  | closed => exact old?_of_mem_set h hhead rfl
  | shut => exact old?_of_mem_set h hhead rfl
  | short => exact old?_of_mem_set h hhead rfl

theorem Restarted.old? {r : Reading} (h : Lined s.tasks s.turns) (hhead : s.turns.head? = some i)
    (hr : Restarted origin s i r t) : ∀ x ∈ t.tasks, x.old? = none := by
  have hbound : Lined (s.tasks.map Task.wake) s.turns := h.wake true
  cases hr with
  | shut => exact old?_of_mem_set h hhead rfl
  | @refused cause =>
    intro x hx
    rw [finish_eq, tasks_endTask, tasks_note] at hx
    exact old?_of_mem_set (s := s.rebound (s.restartAt r)) (by simpa using hbound) (by simpa using hhead) rfl x hx
  | @connected source _ _ _ hlook => exact hlook.old? (by simpa using hbound) (by simpa using hhead)

theorem freed_of_hasStopped {task : Task} {old : Nat} (hold : task.old? = some old) (hstop : s.hasStopped old = true) :
    s.Freed task := by
  intro k hk
  rw [hold] at hk
  obtain rfl := Option.some.inj hk
  exact hstop

theorem window_of_isStale {r : Reading} (h : s.isStale r = false) :
    s.slot.isSome = true ∧ s.ring.start ≤ r.position ∧ r.position < s.reach := by
  refine ⟨slot_of_isStale h, start_le_of_not_stale h, ?_⟩
  simp only [isStale, Bool.or_eq_false_iff, decide_eq_false_iff_not] at h
  omega

theorem Sound.readTurn {r : Reading} (h : Sound origin terms s) (hi : s.tasks[i]? = some (.read r))
    (hready : s.taskReady i = true) : ReadTurn origin s i r (s.readStep origin i r) := by
  refine readTurn_readStep h.ring hi hready fun last woken hp => ?_
  have hw := h.waiting r last woken (List.mem_of_getElem? hi) hp
  exact ⟨hw.low, hw.target ▸ le_lastWanted s r⟩

theorem Sound.endTask {old task : Task} (h : Sound origin terms s) (hi : s.tasks[i]? = some old) (hmem : i ∈ s.turns)
    (hold : s.Freed old) (hover : task.isOver = true) : Sound origin terms (s.endTask i task) := by
  refine ⟨h.toFit.endTask hi hmem hold hover, fun x hx k hk => ?_⟩
  rcases mem_set_cases hx with rfl | hx
  · rw [Task.old?_of_isOver hover] at hk
    cases hk
  · exact h.vacated x hx k hk

/-- A read that looks has the turn, and a feed is there to bring its bytes. -/
theorem Sound.atWork {r : Reading} {last : Nat} (h : Sound origin terms s) (hi : s.tasks[i]? = some (.read r))
    (hhead : s.turns.head? = some i)
    (hlast : (r.phase = .queued ∧ s.closed = false ∧ s.isStale r = false ∧ last = s.lastWanted r) ∨
      r.phase = .waiting last true) : AtWork origin terms s i r last := by
  rcases hlast with ⟨hp, -, hstale, hlast⟩ | hp
  · obtain ⟨hslot, hlow, hhigh⟩ := window_of_isStale hstale
    exact ⟨h.toFit, hi, hhead, by simp [Task.isOver, hp], freed_of_none (by simp [Task.old?, hp]), hslot, hlow, hhigh,
      hlast⟩
  · have hw := h.waiting r _ _ (List.mem_of_getElem? hi) hp
    exact ⟨h.toFit, hi, hhead, by simp [Task.isOver, hp], freed_of_none (by simp [Task.old?, hp]), hw.served, hw.low,
      hw.high, hw.target⟩

theorem Sound.replaces {r : Reading} (h : Sound origin terms s) (hi : s.tasks[i]? = some (.read r))
    (hhead : s.turns.head? = some i)
    (hold : (r.phase = .queued ∧ s.closed = false ∧ s.slot = none) ∨
      ∃ old, r.phase = .replacing old ∧ s.hasStopped old = true) : Replaces origin terms s i r := by
  rcases hold with ⟨hp, -, hslot⟩ | ⟨old, hp, hstop⟩
  · exact ⟨h.toFit, hi, hhead, by simp [Task.isOver, hp], by simp [Task.isWaiting, hp],
      freed_of_none (by simp [Task.old?, hp]), hslot⟩
  · have hold : (Task.read r).old? = some old := by simp [Task.old?, hp]
    exact ⟨h.toFit, hi, hhead, by simp [Task.isOver, hp], by simp [Task.isWaiting, hp], freed_of_hasStopped hold hstop,
      h.vacated _ (List.mem_of_getElem? hi) old hold⟩

theorem Sound.of_readTurn {r : Reading} (h : Sound origin terms s) (hoffers : Offers origin terms s.stream)
    (hi : s.tasks[i]? = some (.read r)) (hhead : s.turns.head? = some i) (ht : ReadTurn origin s i r t) :
    Sound origin terms t := by
  have hmem : i ∈ s.turns := List.mem_of_mem_head? hhead
  cases ht with
  | closed hp hc => exact h.endTask hi hmem (freed_of_none (by simp [Task.old?, hp])) rfl
  | dismiss hp hc hstale hslot =>
    have hasked := h.asked r (List.mem_of_getElem? hi) (by simp [Task.isOver, hp])
    refine ⟨h.dismiss hslot hi hhead (by simp [Task.isQueued, hp]) rfl rfl rfl fun r' hr => ?_, fun _ _ _ _ => rfl⟩
    obtain rfl := Task.read.inj hr
    exact hasked
  | restart hold hr =>
    refine ⟨(h.replaces hi hhead hold).restarted hoffers hr, fun x hx k hk => ?_⟩
    rw [hr.old? h.lined hhead x hx] at hk
    cases hk
  | look hlast hl =>
    refine ⟨(h.atWork hi hhead hlast).looked hl, fun x hx k hk => ?_⟩
    rw [hl.old? h.lined hhead x hx] at hk
    cases hk
  | late hp hd => exact h.endTask hi hmem (freed_of_none (by simp [Task.old?, hp])) rfl

theorem Sound.closeStep {c : Closing} (h : Sound origin terms s) (hi : s.tasks[i]? = some (.close c))
    (hhead : s.turns.head? = some i) : Sound origin terms (s.closeStep i c) := by
  have hmem : i ∈ s.turns := List.mem_of_mem_head? hhead
  unfold Session.closeStep
  split
  · split
    · rename_i old hslot
      exact ⟨h.dismiss hslot hi hhead rfl rfl rfl rfl (fun r hr => nomatch hr), fun _ _ _ _ => rfl⟩
    · exact h.endTask hi hmem (freed_of_none rfl) rfl
  · rename_i old
    split
    · exact h.endTask hi hmem (freed_of_hasStopped rfl ‹_›) rfl
    · exact h
  · exact h

theorem Sound.turn (h : Sound origin terms s) (hoffers : Offers origin terms s.stream)
    (hhead : s.turns.head? = some i) (hready : s.taskReady i = true) : Sound origin terms (s.turn origin i) := by
  unfold Session.turn
  split
  · rename_i r hi
    exact h.of_readTurn hoffers hi hhead (h.readTurn hi hready)
  · exact h.closeStep ‹_› hhead
  · exact h

/-! ### Steps of feeds -/

theorem exists_of_feedReady {k : Nat} (h : s.feedReady k = true) : ∃ f, s.feeds[k]? = some f ∧ f.isReady s.now = true := by
  unfold feedReady at h
  split at h
  · exact ⟨_, ‹_›, h⟩
  · cases h

theorem Sound.rering {woke : Bool} (h : Sound origin terms s) (ht : Reringed s t woke)
    (hstopping : t.ring.isClosed = true → ∀ g ∈ t.feeds, g.cancelled = true)
    (hfills : ∀ k g, s.slot = some k → t.feeds[k]? = some g → t.ring.isClosed = false →
      g.cancelled = false ∧ g.Fills origin (terms (s.attempts - 1)) t.ring)
    (hasleep : ∀ g ∈ t.feeds, g.isAsleep = true → t.ring.free = 0) (hstart : t.ring.start = s.ring.start) :
    Sound origin terms t := by
  refine ⟨h.toFit.rering ht hstopping hfills hasleep (Or.inl hstart), fun x hx k hk => ?_⟩
  obtain ⟨y, hy, hyx⟩ := old?_of_told ht.tasks hx
  rw [ht.slot]
  exact h.vacated y hy k (by rw [← hyx, hk])

theorem reringed_feedStep {k : Nat} {f : Feed σ} (hring : s.ring.Sound) (hk : s.feeds[k]? = some f)
    (hr : f.isReady s.now = true) :
    Reringed s (s.feedStep origin k) (f.advance origin s.now s.ring).woke := by
  have hw := Feed.worked_advance hring origin hr
  have hsame := Feed.same_advance hring origin hr
  rw [feedStep_eq hk]
  exact (reringed_setRing hw.sound hw.capacity (fun hshut => hw.isClosed.trans hshut) hw.asleep).setFeed hk hsame.follows

theorem getElem?_feedStep {k : Nat} {f : Feed σ} (hk : s.feeds[k]? = some f) (origin : Origin σ) :
    (s.feedStep origin k).feeds[k]? = some (f.advance origin s.now s.ring).feed := by
  have hlt : k < s.feeds.length := (List.getElem?_eq_some_iff.mp hk).1
  rw [feedStep_eq hk, feeds_setFeed, feeds_setRing, List.getElem?_set_self (by simpa using hlt)]

theorem ring_feedStep {k : Nat} {f : Feed σ} (hk : s.feeds[k]? = some f) (origin : Origin σ) :
    (s.feedStep origin k).ring = (f.advance origin s.now s.ring).ring := by
  rw [feedStep_eq hk, ring_setFeed, ring_setRing]

theorem Sound.feedStep {k : Nat} (h : Sound origin terms s) (hready : s.feedReady k = true) :
    Sound origin terms (s.feedStep origin k) := by
  obtain ⟨f, hk, hr⟩ := exists_of_feedReady hready
  have ht : Reringed s (s.feedStep origin k) _ := reringed_feedStep h.ring hk hr
  have hw := Feed.worked_advance h.ring origin hr
  have hsame := Feed.same_advance h.ring origin hr
  have hring := ring_feedStep hk origin
  have hget := getElem?_feedStep hk origin
  refine h.rering ht (fun hshut => ?_) ?_ ?_ (by rw [hring, hw.start])
  · rw [hring, hw.isClosed] at hshut
    exact ht.stopping (h.stopping hshut)
  · -- Only the feed in the slot can run without being cancelled.
    intro j g hj hg hopen
    rw [hring, hw.isClosed] at hopen
    obtain ⟨f', hf', hs⟩ := h.serving j hj
    obtain rfl : k = j := by
      rcases h.live k f hk (Feed.isStopped_of_isReady hr) with hslot | ⟨hslot, -⟩
      · exact Option.some.inj (hslot.symm.trans hj)
      · rw [hslot] at hj
        cases hj
    rw [hk] at hf'
    obtain rfl := Option.some.inj hf'
    rw [hget] at hg
    obtain rfl := Option.some.inj hg
    obtain ⟨hgo, hf⟩ := hs.fills hopen
    rw [hring]
    exact ⟨hsame.cancelled.trans hgo, Feed.fills_advance h.ring hopen hf hgo hr⟩
  · intro g hg hs
    rw [hring]
    obtain ⟨j, hj⟩ := List.mem_iff_getElem?.mp hg
    by_cases hkj : k = j
    · subst hkj
      rw [hget] at hj
      obtain rfl := Option.some.inj hj
      exact Feed.free_of_isAsleep_advance h.ring origin hr hs
    · rw [feedStep_eq hk, feeds_setFeed, List.getElem?_set_ne hkj, feeds_setRing, List.getElem?_map] at hj
      obtain ⟨f', hf', rfl⟩ := Option.map_eq_some_iff.mp hj
      -- A feed that was told of a change does not sleep, and without one the ring is as full as it was.
      cases hwoke : (f.advance origin s.now s.ring).woke with
      | true =>
        rw [hwoke] at hs
        simp at hs
      | false =>
        rw [hwoke] at hs
        rw [hw.asleep hwoke]
        exact h.asleep f' (List.mem_of_getElem? hf') hs

/-! ### The end of the ring -/

theorem reringed_expire (hring : s.ring.Sound) : Reringed s s.expire s.ring.close.woke := by
  refine (reringed_setRing (Ring.sound_close hring) (Ring.capacity_close s.ring) (fun _ => Ring.isClosed_close s.ring)
    fun hno => ?_).cancelAll
  cases hc : s.ring.isClosed with
  | true => rw [Ring.close_of_closed hc]
  | false =>
    rw [Ring.close_of_open hc] at hno
    cases hno

theorem Sound.expire (h : Sound origin terms s) : Sound origin terms s.expire := by
  have hring : s.expire.ring = s.ring.close.ring := ring_setRing ..
  have hshut : s.expire.ring.isClosed = true := by rw [hring, Ring.isClosed_close]
  refine h.rering (reringed_expire h.ring) (fun _ g hg => ?_) (fun _ _ _ _ hopen => ?_) (fun _ _ _ => ?_) ?_
  · obtain ⟨f, -, rfl⟩ := List.mem_map.mp hg
    rfl
  · rw [hshut] at hopen
    cases hopen
  · exact Ring.free_of_closed hshut
  · rw [hring, Ring.start_close]

/-! ### What the owner does -/

theorem Sound.push {task : Task} {turns : List Nat} (h : Sound origin terms s) (hlined : Lined (s.tasks ++ [task]) turns)
    (hnone : task.old? = none) (hw : task.isWaiting = false)
    (hasked : ∀ r, task = .read r → (Task.read r).isOver = false → 0 < r.len ∧ r.position < s.stream.size) :
    Sound origin terms { s with tasks := s.tasks ++ [task], turns } := by
  have hcases : ∀ x, x ∈ s.tasks ++ [task] → x ∈ s.tasks ∨ x = task := by
    intro x hx
    rcases List.mem_append.mp hx with hx | hx
    · exact Or.inl hx
    · exact Or.inr (List.mem_singleton.mp hx)
  refine ⟨⟨h.capacity, h.margin, h.ring, h.shut, h.stopping, fun k hk => ?_, fun k f hk hrun => ?_, h.asleep, hlined,
    fun r hr hgo => ?_, fun x hx k hk => ?_, fun r last woken hr hp => ?_⟩, fun x hx k hk => ?_⟩
  · obtain ⟨f, hf, hs⟩ := h.serving k hk
    exact ⟨f, hf, hs.attempted, hs.connected, hs.fills⟩
  · rcases h.live k f hk hrun with hs | ⟨hs, hc, x, hx, hxk⟩
    · exact Or.inl hs
    · exact Or.inr ⟨hs, hc, x, List.mem_append_left _ hx, hxk⟩
  · rcases hcases _ hr with hr | hr
    · exact h.asked r hr hgo
    · exact hasked r hr.symm hgo
  · rcases hcases x hx with hx | rfl
    · exact h.leaving x hx k hk
    · rw [hnone] at hk
      cases hk
  · rcases hcases _ hr with hr | hr
    · have ha := h.waiting r last woken hr hp
      exact ⟨ha.served, ha.low, ha.high, ha.target, ha.pending⟩
    · rw [← hr] at hw
      simp [Task.isWaiting, hp] at hw
  · rcases hcases x hx with hx | rfl
    · exact h.vacated x hx k hk
    · rw [hnone] at hk
      cases hk

theorem Sound.push_over {task : Task} (h : Sound origin terms s) (hover : task.isOver = true) :
    Sound origin terms { s with tasks := s.tasks ++ [task] } :=
  h.push (h.lined.push_over hover) (Task.old?_of_isOver hover) (Task.isWaiting_of_isOver hover) fun r hr hgo => by
    rw [← hr, hover] at hgo
    cases hgo

theorem Sound.start (h : Sound origin terms s) (len position : Nat) (timeout : Option Duration) :
    Sound origin terms (s.start len position timeout) := by
  unfold Session.start
  simp only
  split
  · exact h.push_over rfl
  · split
    · exact h.push_over rfl
    · split
      · exact h.push_over rfl
      · rename_i hposition hlen
        refine h.push (h.lined.push rfl) rfl rfl ?_
        rintro r hr -
        obtain rfl := Task.read.inj hr
        exact ⟨Nat.pos_of_ne_zero hlen, Nat.lt_of_not_le hposition⟩

theorem Sound.startClose (h : Sound origin terms s) : Sound origin terms s.startClose := by
  unfold Session.startClose
  split
  · exact h.push_over rfl
  · have hexpired := h.expire
    have hclosed : Sound origin terms { s.expire with closed := true } := by
      refine ⟨⟨hexpired.capacity, hexpired.margin, hexpired.ring, fun _ => ?_, hexpired.stopping, fun k hk => ?_,
        hexpired.live, hexpired.asleep, hexpired.lined, hexpired.asked, hexpired.leaving, fun r last woken hr hp => ?_⟩,
        hexpired.vacated⟩
      · show (s.setRing _ _).ring.isClosed = true
        rw [ring_setRing, Ring.isClosed_close]
      · obtain ⟨f, hf, hs⟩ := hexpired.serving k hk
        exact ⟨f, hf, hs.attempted, hs.connected, hs.fills⟩
      · have ha := hexpired.waiting r last woken hr hp
        exact ⟨ha.served, ha.low, ha.high, ha.target, ha.pending⟩
    exact hclosed.push (hclosed.lined.push rfl) rfl rfl fun r hr => nomatch hr

/-- In a settled session the feeds that were told to stop have stopped. -/
theorem isStopped_of_isSettled {k : Nat} {f : Feed σ} (hrest : s.IsSettled) (hk : s.feeds[k]? = some f)
    (hc : f.cancelled = true) : f.isStopped = true := by
  have hno : f.isReady s.now = false := by
    cases hr : f.isReady s.now with
    | false => rfl
    | true => exact absurd (by simp [CanMove, feedReady, hk, hr]) (hrest.not_canMove (.feed k))
  rw [Feed.isStopped_iff]
  unfold Feed.isReady at hno
  split at hno
  · cases hno
  · rw [hc] at hno
    cases hno
  · rw [hc] at hno
    cases hno
  · assumption

theorem Sound.freed {x : Task} (h : Sound origin terms s) (hrest : s.IsSettled) (hx : x ∈ s.tasks) : s.Freed x := by
  intro k hk
  obtain ⟨f, hf, hc⟩ := h.leaving x hx k hk
  simp only [hasStopped, hf, isStopped_of_isSettled hrest hf hc]

/-- Where feeds that are waited for have stopped, no task waits for one when nobody can take a step. -/
theorem Lined.old?_of_isSettled {x : Task} (h : Lined s.tasks s.turns) (hrest : s.IsSettled)
    (hfreed : ∀ y ∈ s.tasks, s.Freed y) (hx : x ∈ s.tasks) : x.old? = none := by
  cases hold : x.old? with
  | none => rfl
  | some k =>
    obtain ⟨i, hi⟩ := List.mem_iff_getElem?.mp hx
    have hstop := hfreed x hx k hold
    obtain ⟨hgo, hbegun⟩ := Task.begun_of_old? hold
    have hready : s.taskReady i = true := by
      unfold Task.old? at hold
      unfold taskReady
      rw [hi]
      split at hold
      · split at hold
        · rename_i hp
          obtain rfl := Option.some.inj hold
          simp only [hp, hstop]
        · cases hold
      · obtain rfl := Option.some.inj hold
        exact hstop
      · cases hold
    exact absurd ⟨h.head hi hgo hbegun, hready⟩ (hrest.not_canMove (.task i))

/-- In a settled session no task waits for a feed to stop. -/
theorem Sound.old?_of_isSettled {x : Task} (h : Sound origin terms s) (hrest : s.IsSettled) (hx : x ∈ s.tasks) :
    x.old? = none :=
  h.lined.old?_of_isSettled hrest (fun _ => h.freed hrest) hx

/-- A read may be given up unless it waits for a feed that has not stopped. -/
theorem Sound.abandon (h : Sound origin terms s) (hfreed : ∀ task, s.tasks[i]? = some task → s.Freed task) :
    Sound origin terms (s.abandon i).2 := by
  unfold Session.abandon
  split
  · rename_i r hi
    split
    · exact h
    · rename_i hgo
      have hmem : i ∈ s.turns := (h.lined.mem_iff i).mpr ⟨_, hi, by simpa using hgo⟩
      exact h.endTask hi hmem (hfreed _ hi) rfl
  · exact h

theorem Sound.act {a : Act} (h : Sound origin terms s)
    (hfreed : ∀ i task, a = .abandon i → s.tasks[i]? = some task → s.Freed task) : Sound origin terms (s.act a) := by
  cases a with
  | start len position timeout => exact h.start len position timeout
  | abandon i => exact h.abandon (hfreed i · rfl)
  | close => exact h.startClose
  | letGo => exact ⟨h.alike ⟨rfl, rfl, rfl, rfl, rfl, rfl, rfl, rfl⟩, h.vacated⟩

/-! ### Steps and runs -/

theorem Sound.move {m : Mover} (h : Sound origin terms s) (hoffers : Offers origin terms s.stream) (hm : s.CanMove m) :
    Sound origin terms (s.move origin m) := by
  cases m with
  | feed k => exact h.feedStep hm
  | task i => exact h.turn hoffers hm.1 hm.2
  | stream => exact h.expire

theorem Sound.wait (h : Sound origin terms s) (now : Nat) : Sound origin terms { s with now } :=
  ⟨h.alike ⟨rfl, rfl, rfl, rfl, rfl, rfl, rfl, rfl⟩, h.vacated⟩

theorem Sound.step (h : Sound origin terms s) (hoffers : Offers origin terms s.stream) (hstep : Step origin s t) :
    Sound origin terms t := by
  cases hstep with
  | move hm => exact h.move hoffers hm
  | wait => exact h.wait _
  | act a hrest => exact h.act fun i task _ hi => h.freed hrest (List.mem_of_getElem? hi)

theorem Sound.reaches (h : Sound origin terms s) (hoffers : Offers origin terms s.stream) (hreach : Reaches origin s t) :
    Sound origin terms t ∧ t.stream = s.stream := by
  induction hreach with
  | refl => exact ⟨h, rfl⟩
  | tail _ hstep ih =>
    obtain ⟨hs, heq⟩ := ih
    exact ⟨hs.step (heq ▸ hoffers) hstep, hstep.stream.trans heq⟩

end Session
end ReadAhead
