import ReadAhead.Proofs.Session.Weave

/-! What holds whoever owns the stream, also where a read is given up that waits for a feed to stop. Nobody may
    wait for that feed then, and another may be started beside it; but every feed outside the slot was told to
    stop, so that it puts nothing into the ring any more (`Tended`). And the tasks still take turns: one that
    waits for a feed to stop has left the slot empty, and a read that waits for bytes has them ahead of the
    read cursor (`Orderly`). -/

namespace ReadAhead

/-- A task and the same task further on. -/
inductive Task.Onward : Task → Task → Prop
  | read (r : Reading) (phase : Reading.Phase) : Onward (.read r) (.read { r with phase })
  | close (c c' : Closing) : Onward (.close c) (.close c')

namespace Session
variable {σ : Type} {origin : Origin σ} {may : Session σ → Act → Prop} {s t u : Session σ} {i last : Nat} {r : Reading}
  {x new : Task}

/-! ### Rings and feeds -/

/-- Feeds outside the slot were told to stop, and with the ring closed all were. -/
structure Tended (s : Session σ) : Prop where
  ring : s.ring.Sound
  shut : s.closed = true → s.ring.isClosed = true
  stopping : s.ring.isClosed = true → ∀ f ∈ s.feeds, f.cancelled = true
  stray : ∀ k f, s.feeds[k]? = some f → s.slot = some k ∨ f.cancelled = true

theorem Tended.of_eq (h : s.Tended) (hring : t.ring = s.ring) (hfeeds : t.feeds = s.feeds) (hslot : t.slot = s.slot)
    (hclosed : t.closed = s.closed) : t.Tended := by
  refine ⟨?_, ?_, ?_, ?_⟩
  · rw [hring]
    exact h.ring
  · rw [hclosed, hring]
    exact h.shut
  · rw [hring, hfeeds]
    exact h.stopping
  · rw [hfeeds, hslot]
    exact h.stray

theorem Tended.note (h : s.Tended) (mark : Mark) : (s.note mark).Tended :=
  h.of_eq (ring_note ..) (feeds_note ..) (slot_note ..) (closed_note ..)

theorem Tended.rering {woke : Bool} (h : s.Tended) (ht : Reringed s t woke)
    (hstopping : t.ring.isClosed = true → ∀ g ∈ t.feeds, g.cancelled = true) : t.Tended := by
  refine ⟨ht.sound, fun hc => ht.shut (h.shut (ht.closed ▸ hc)), hstopping, fun k g hg => ?_⟩
  obtain ⟨f, hf, hfollows⟩ := ht.back k g hg
  rw [ht.slot]
  exact (h.stray k f hf).imp_right hfollows.cancelled

/-- A change of an open ring of which everyone is told. -/
theorem Tended.setRing {ring : Ring} (h : s.Tended) (hring : ring.Sound) (hcap : ring.capacity = s.ring.capacity)
    (hclosed : ring.isClosed = s.ring.isClosed) : (s.setRing ring true).Tended := by
  have ht : Reringed s (s.setRing ring true) true :=
    reringed_setRing hring hcap (fun hshut => hclosed.trans hshut) fun hno => nomatch hno
  refine h.rering ht fun hshut => ht.stopping (h.stopping ?_)
  rwa [ring_setRing, hclosed] at hshut

theorem Tended.feedStep {k : Nat} (h : s.Tended) (hready : s.feedReady k = true) : (s.feedStep origin k).Tended := by
  obtain ⟨f, hk, hr⟩ := exists_of_feedReady hready
  have ht : Reringed s (s.feedStep origin k) _ := reringed_feedStep h.ring hk hr
  refine h.rering ht fun hshut => ht.stopping (h.stopping ?_)
  rwa [ring_feedStep hk, (Feed.worked_advance h.ring origin hr).isClosed] at hshut

theorem Tended.expire (h : s.Tended) : s.expire.Tended := by
  refine h.rering (reringed_expire h.ring) fun _ g hg => ?_
  obtain ⟨f, -, rfl⟩ := List.mem_map.mp hg
  rfl

/-- The feed that leaves the slot is told to stop. -/
theorem Tended.dismiss {old : Nat} (h : s.Tended) (hslot : s.slot = some old) : (s.dismiss old).Tended := by
  have hcancelled : ∀ (k : Nat) (g : Feed σ), (s.dismiss old).feeds[k]? = some g → g.cancelled = true := by
    intro k g hg
    obtain ⟨f, hf, rfl⟩ := getElem?_dismiss s hg
    rcases h.stray k f hf with hk | hc
    · rw [if_pos (Option.some.inj (hslot.symm.trans hk))]
      rfl
    · split
      · rfl
      · exact hc
  refine ⟨h.ring, h.shut, fun _ g hg => ?_, fun k g hg => Or.inr (hcancelled k g hg)⟩
  obtain ⟨k, hk⟩ := List.mem_iff_getElem?.mp hg
  exact hcancelled k g hk

theorem Tended.install {source : σ} {start : Nat} (h : s.Tended) (hslot : s.slot = none)
    (hopen : s.ring.isClosed = false) : (s.install source start).Tended := by
  refine ⟨h.ring, h.shut, fun hshut => absurd hopen ?_, fun k g hg => ?_⟩
  · rw [← ring_install s source start, hshut]
    simp
  · rcases getElem?_install hg with hold | ⟨rfl, -⟩
    · rcases h.stray k g hold with hk | hc
      · rw [hslot] at hk
        cases hk
      · exact Or.inr hc
    · exact Or.inl rfl

theorem Tended.rebound (h : s.Tended) (start : Nat) : (s.rebound start).Tended :=
  (h.setRing (Ring.sound_emptied h.ring start) rfl rfl).of_eq rfl rfl rfl rfl

theorem Tended.joined {source : σ} {start : Nat} (h : s.Tended) (hslot : s.slot = none) (hopen : s.ring.isClosed = false) :
    (s.joined source start).Tended := by
  refine ((h.rebound start).install ?_ ?_).note _
  · rw [slot_rebound, hslot]
  · rwa [ring_rebound, Ring.isClosed_emptied]

theorem Tended.looked (h : s.Tended) (hl : Looked s i r last t) : t.Tended := by
  rcases hl.steady_or_takes with ht | ⟨bytes, left, -, htaken, ht⟩
  · exact h.of_eq ht.ring ht.feeds ht.slot ht.closed
  · exact (h.setRing htaken.sound htaken.capacity htaken.isClosed_eq).of_eq ht.ring ht.feeds ht.slot ht.closed

theorem Tended.restarted (h : s.Tended) (hslot : s.slot = none) (hr : Restarted origin s i r t) : t.Tended := by
  cases hr with
  | shut => exact h.of_eq rfl rfl rfl rfl
  | refused => exact ((h.rebound _).note .idle).of_eq rfl rfl rfl rfl
  | connected hopen _ hlook => exact (h.joined hslot hopen).looked hlook

/-! ### Tasks -/

/-- What a task relies on that has begun: waiting for a feed to stop, that the slot is empty; waiting for bytes, that
    a feed is there and the bytes are ahead of the read cursor. -/
def Suits (s : Session σ) : Task → Prop
  | .read r => match r.phase with
    | .replacing _ => s.slot = none
    | .waiting last _ => s.slot.isSome = true ∧ s.ring.start ≤ r.position ∧ r.position ≤ last
    | _ => True
  | .close (.draining _) => s.slot = none
  | .close _ => True

theorem suits_of_isOver (h : x.isOver = true) : s.Suits x := by
  rcases x with ⟨len, position, wait, deadline, phase⟩ | c
  · cases phase <;> trivial
  · cases c <;> trivial

theorem suits_of_isQueued (h : x.isQueued = true) : s.Suits x := by
  rcases x with ⟨len, position, wait, deadline, phase⟩ | c
  · cases phase <;> trivial
  · cases c <;> trivial

theorem suits_told (woke : Bool) : s.Suits (if woke then x.wake else x) ↔ s.Suits x := by
  cases woke with
  | false => exact Iff.rfl
  | true =>
    rcases x with ⟨len, position, wait, deadline, phase⟩ | c
    · cases phase <;> exact Iff.rfl
    · exact Iff.rfl

theorem Suits.of_eq (h : s.Suits x) (hslot : t.slot = s.slot) (hstart : t.ring.start = s.ring.start) : t.Suits x := by
  unfold Suits at h ⊢
  rw [hslot, hstart]
  exact h

theorem Suits.vacated {k : Nat} (h : s.Suits x) (hold : x.old? = some k) : s.slot = none := by
  rcases x with ⟨len, position, wait, deadline, phase⟩ | c
  · cases phase <;> first | exact h | cases hold
  · cases c <;> first | exact h | cases hold

/-- The tasks stand in line, each with what it relies on. -/
structure Orderly (s : Session σ) : Prop extends Tended s where
  lined : Lined s.tasks s.turns
  begun : ∀ x ∈ s.tasks, s.Suits x
  asked : ∀ r, .read r ∈ s.tasks → (Task.read r).isOver = false → 0 < r.len ∧ r.position < s.stream.size

theorem IsNew.orderly (h : IsNew s) : s.Orderly := by
  obtain ⟨node, url, size, tier, readTimeout, maxReadTimeout, scratch, storage, now, -, rfl⟩ := h
  refine ⟨⟨Ring.sound_onStorage storage 0, fun h => ?_, fun _ f hf => ?_, fun k f hf => ?_⟩, lined_nil, fun x hx => ?_,
    fun r hr => ?_⟩
  · cases h
  · cases hf
  · cases hf
  · cases hx
  · cases hr

/-- Task `i` moves on to `new`, and out of the line if it is over then; the others are told of a change or not. -/
structure Moved (s t : Session σ) (i : Nat) (new : Task) : Prop where
  stream : t.stream = s.stream
  turns : t.turns = if new.isOver then s.turns.erase i else s.turns
  tasks : ∃ woke : Bool, t.tasks = (s.tasks.map fun x => if woke then x.wake else x).set i new

theorem moved_setTask (s : Session σ) (i : Nat) (hgo : new.isOver = false) : Moved s (s.setTask i new) i new :=
  ⟨rfl, by rw [hgo]; rfl, false, by simp⟩

theorem moved_endTask (s : Session σ) (i : Nat) (hover : new.isOver = true) : Moved s (s.endTask i new) i new :=
  ⟨rfl, by rw [hover]; rfl, false, by simp⟩

theorem Moved.told (h : Moved u t i new) (woke : Bool) (hstream : u.stream = s.stream) (hturns : u.turns = s.turns)
    (htasks : u.tasks = s.tasks.map fun x => if woke then x.wake else x) : Moved s t i new := by
  obtain ⟨again, ht⟩ := h.tasks
  refine ⟨h.stream.trans hstream, hturns ▸ h.turns, woke || again, ?_⟩
  rw [ht, htasks, List.map_map]
  congr 2
  funext x
  cases woke <;> cases again <;> simp

theorem Moved.task (h : Moved s t i new) (hlt : i < s.tasks.length) : t.tasks[i]? = some new := by
  obtain ⟨woke, ht⟩ := h.tasks
  rw [ht, List.getElem?_set_self]
  rwa [List.length_map]

theorem Orderly.moved (h : s.Orderly) (hkept : t.Tended) (hhead : s.turns.head? = some i) (hm : Moved s t i new) (hsuits : t.Suits new)
    (hasked : ∀ r, new = .read r → (Task.read r).isOver = false → 0 < r.len ∧ r.position < s.stream.size) :
    t.Orderly := by
  obtain ⟨woke, ht⟩ := hm.tasks
  have hwoken := h.lined.wake woke
  have hlined : Lined t.tasks t.turns := by
    rw [ht, hm.turns]
    cases hover : new.isOver with
    | true => exact hwoken.erase (List.mem_of_mem_head? hhead) hover
    | false => exact hwoken.set hhead hover
  refine ⟨hkept, hlined, ?_, fun r hr hgo => ?_⟩
  · rw [ht]
    exact hwoken.all_set hhead (fun _ => suits_of_isOver) (fun _ => suits_of_isQueued) hsuits
  · rw [hm.stream]
    rw [ht] at hr
    rcases mem_set_cases hr with hnew | hr
    · exact hasked r hnew.symm hgo
    · obtain ⟨r', hr', hover, -, hlen, hposition, -⟩ := read_of_told (t := { t with tasks := _ }) rfl hr
      rw [hlen, hposition]
      exact h.asked r' hr' (hover.trans hgo)

/-! ### Turns -/

/-- A read that looks is over then, or waits for what it looked for. -/
theorem Looked.moved (hl : Looked s i r last t) (hslot : s.slot.isSome = true) (hlow : s.ring.start ≤ r.position)
    (hhigh : r.position ≤ last) : ∃ phase, Moved s t i (.read { r with phase }) ∧ t.Suits (.read { r with phase }) := by
  cases hl with
  | closed => exact ⟨_, moved_endTask s i rfl, trivial⟩
  | shut => exact ⟨_, moved_endTask s i rfl, trivial⟩
  | @served _ _ _ bytes left _ =>
    refine ⟨_, (moved_endTask ((s.setRing left true).note .ready) i rfl).told true ?_ ?_ ?_, trivial⟩
    · rw [stream_note, stream_setRing]
    · rw [turns_note, turns_setRing]
    · rw [tasks_note, tasks_setRing]
  | short => exact ⟨_, moved_endTask s i rfl, trivial⟩
  | late =>
    exact ⟨_, (moved_endTask (s.note .filling) i rfl).told false (stream_note ..) (turns_note ..) (by simp),
      trivial⟩
  | waits =>
    refine ⟨_, (moved_setTask (s.note .filling) i rfl).told false (stream_note ..) (turns_note ..) (by simp), ?_⟩
    exact ⟨by simpa using hslot, by simpa using hlow, hhigh⟩

theorem Restarted.moved (hr : Restarted origin s i r t) :
    ∃ phase, Moved s t i (.read { r with phase }) ∧ t.Suits (.read { r with phase }) := by
  cases hr with
  | shut => exact ⟨_, moved_endTask s i rfl, trivial⟩
  | refused =>
    refine ⟨_, (moved_endTask ((s.rebound _).note .idle) i rfl).told true ?_ ?_ ?_, trivial⟩
    · rw [stream_note, stream_rebound]
    · rw [turns_note, turns_rebound]
    · rw [tasks_note, tasks_rebound]
      rfl
  | @connected source _ hopen _ hlook =>
    obtain ⟨phase, hm, hsuits⟩ := hlook.moved (by simp) (by simp [restartAt]) (le_lastWanted _ r)
    exact ⟨phase, hm.told true (stream_joined ..) (turns_joined ..) (tasks_joined ..), hsuits⟩

/-- A read that waits for bytes has a feed in the slot, and the bytes ahead of the read cursor. -/
theorem Orderly.waiting (h : s.Orderly) (hi : s.tasks[i]? = some (.read r)) {woken : Bool}
    (hp : r.phase = .waiting last woken) : s.slot.isSome = true ∧ s.ring.start ≤ r.position ∧ r.position ≤ last := by
  have hsuits := h.begun _ (List.mem_of_getElem? hi)
  simpa only [Suits, hp] using hsuits

theorem Orderly.moved_readTurn (h : s.Orderly) (hi : s.tasks[i]? = some (.read r)) (ht : ReadTurn origin s i r t) :
    ∃ phase, Moved s t i (.read { r with phase }) ∧ t.Suits (.read { r with phase }) := by
  cases ht with
  | closed => exact ⟨_, moved_endTask s i rfl, trivial⟩
  | @dismiss old => exact ⟨.replacing old, ⟨rfl, rfl, false, by simp⟩, rfl⟩
  | restart _ hr => exact hr.moved
  | @look last _ hlast hl =>
    have hahead : s.slot.isSome = true ∧ s.ring.start ≤ r.position ∧ r.position ≤ last := by
      rcases hlast with ⟨-, -, hstale, rfl⟩ | hp
      · obtain ⟨hslot, hlow, -⟩ := window_of_isStale hstale
        exact ⟨hslot, hlow, le_lastWanted s r⟩
      · exact h.waiting hi hp
    exact hl.moved hahead.1 hahead.2.1 hahead.2.2
  | late => exact ⟨_, moved_endTask s i rfl, trivial⟩

theorem Orderly.readTurn (h : s.Orderly) (hi : s.tasks[i]? = some (.read r)) (hready : s.taskReady i = true) :
    ReadTurn origin s i r (s.readStep origin i r) := by
  refine readTurn_readStep h.ring hi hready fun last woken hp => ?_
  obtain ⟨-, hahead⟩ := h.waiting hi hp
  exact hahead

/-- A read that replaces the feed finds the slot empty. -/
theorem Orderly.slot_of_restart (h : s.Orderly) (hi : s.tasks[i]? = some (.read r))
    (hold : (r.phase = .queued ∧ s.closed = false ∧ s.slot = none) ∨
      ∃ old, r.phase = .replacing old ∧ s.hasStopped old = true) : s.slot = none := by
  rcases hold with ⟨-, -, hslot⟩ | ⟨old, hp, -⟩
  · exact hslot
  · exact (h.begun _ (List.mem_of_getElem? hi)).vacated (k := old) (by simp [Task.old?, hp])

theorem Orderly.tended_readTurn (h : s.Orderly) (hi : s.tasks[i]? = some (.read r)) (ht : ReadTurn origin s i r t) :
    t.Tended := by
  cases ht with
  | closed => exact h.toTended.of_eq rfl rfl rfl rfl
  | dismiss _ _ _ hslot => exact (h.toTended.dismiss hslot).of_eq rfl rfl rfl rfl
  | restart hold hr => exact h.toTended.restarted (h.slot_of_restart hi hold) hr
  | look _ hl => exact h.toTended.looked hl
  | late => exact h.toTended.of_eq rfl rfl rfl rfl

/-- A task that can take a step does, and what it comes to is the same task further on. -/
theorem Orderly.moved_turn (h : s.Orderly) (hi : s.tasks[i]? = some x) (hready : s.taskReady i = true) :
    ∃ new, x.Onward new ∧ Moved s (s.turn origin i) i new ∧ (s.turn origin i).Suits new ∧ (s.turn origin i).Tended := by
  unfold Session.turn
  rw [hi]
  cases x with
  | read r =>
    have hturn : ReadTurn origin s i r _ := h.readTurn hi hready
    obtain ⟨phase, hm, hsuits⟩ := h.moved_readTurn hi hturn
    exact ⟨_, .read r phase, hm, hsuits, h.tended_readTurn hi hturn⟩
  | close c =>
    simp only [taskReady, hi] at hready
    have hkept : ∀ task : Task, (s.endTask i task).Tended := fun _ => h.toTended.of_eq rfl rfl rfl rfl
    simp only [Session.closeStep]
    cases c with
    | queued =>
      cases hslot : s.slot with
      | some old =>
        exact ⟨_, .close _ (.draining old), ⟨rfl, rfl, false, by simp⟩, rfl,
          (h.toTended.dismiss hslot).of_eq rfl rfl rfl rfl⟩
      | none => exact ⟨_, .close _ .done, moved_endTask s i rfl, trivial, hkept _⟩
    | draining old =>
      simp only [hready, if_true]
      exact ⟨_, .close _ .done, moved_endTask s i rfl, trivial, hkept _⟩
    | done => cases hready

theorem Orderly.turn (h : s.Orderly) (hhead : s.turns.head? = some i) (hready : s.taskReady i = true) :
    (s.turn origin i).Orderly := by
  obtain ⟨x, hi, hgo⟩ := (h.lined.mem_iff i).mp (List.mem_of_mem_head? hhead)
  obtain ⟨new, honward, hm, hsuits, hkept⟩ : ∃ new, x.Onward new ∧ Moved s (s.turn origin i) i new ∧ _ :=
    h.moved_turn hi hready
  refine h.moved hkept hhead hm hsuits fun r' hr' _ => ?_
  subst hr'
  cases honward with
  | read r => exact h.asked r (List.mem_of_getElem? hi) hgo

/-- What a step can be, the turn of a read taken apart. -/
inductive StepCase (origin : Origin σ) (may : Session σ → Act → Prop) (s : Session σ) : Session σ → Prop
  | feed {k : Nat} {f : Feed σ} (hk : s.feeds[k]? = some f) (hr : f.isReady s.now = true) :
    StepCase origin may s (s.feedStep origin k)
  | read {i : Nat} {r : Reading} {t : Session σ} (hhead : s.turns.head? = some i) (hi : s.tasks[i]? = some (.read r))
    (hturn : ReadTurn origin s i r t) : StepCase origin may s t
  | close {i : Nat} {c : Closing} (hhead : s.turns.head? = some i) (hi : s.tasks[i]? = some (.close c)) :
    StepCase origin may s (s.closeStep i c)
  | expire : StepCase origin may s s.expire
  | wait {now : Nat} : StepCase origin may s { s with now }
  | act {a : Act} (ha : may s a) : StepCase origin may s (s.act a)

theorem Orderly.stepCase (h : s.Orderly) (hstep : Weave origin may s t) : StepCase origin may s t := by
  cases hstep with
  | @move m hm =>
    cases m with
    | feed k =>
      obtain ⟨f, hk, hr⟩ := exists_of_feedReady hm
      exact .feed hk hr
    | task i =>
      obtain ⟨x, hi, -⟩ := (h.lined.mem_iff i).mp (List.mem_of_mem_head? hm.1)
      rw [Session.move, Session.turn, hi]
      cases x with
      | read r => exact .read hm.1 hi (h.readTurn hi hm.2)
      | close c => exact .close hm.1 hi
    | stream => exact .expire
  | wait => exact .wait
  | act ha => exact .act ha

/-! ### The end of the ring -/

theorem isClosed_expire (s : Session σ) : s.expire.ring.isClosed = true := by
  rw [Session.expire, ring_cancelAll, ring_setRing, Ring.isClosed_close]

theorem Looked.isClosed (hl : Looked s i r last t) : t.ring.isClosed = s.ring.isClosed := by
  rcases hl.steady_or_takes with ht | ⟨bytes, left, -, htaken, ht⟩
  · rw [ht.ring]
  · rw [ht.ring, ring_setRing, htaken.isClosed_eq]

theorem ReadTurn.isClosed (hshut : s.ring.isClosed = true) (ht : ReadTurn origin s i r t) : t.ring.isClosed = true := by
  cases ht with
  | restart _ hr =>
    cases hr with
    | shut => exact hshut
    | refused hopen => exact absurd hshut (by simp [hopen])
    | connected hopen => exact absurd hshut (by simp [hopen])
  | look _ hl => exact hl.isClosed.trans hshut
  | closed => exact hshut
  | dismiss => exact hshut
  | late => exact hshut

theorem ring_closeStep (s : Session σ) (i : Nat) (c : Closing) : (s.closeStep i c).ring = s.ring := by
  unfold Session.closeStep
  split
  · split <;> rfl
  · split <;> rfl
  · rfl

theorem isClosed_closeStep (s : Session σ) (i : Nat) (c : Closing) :
    (s.closeStep i c).ring.isClosed = s.ring.isClosed := by
  rw [ring_closeStep]

theorem isClosed_act (hshut : s.ring.isClosed = true) (a : Act) : (s.act a).ring.isClosed = true := by
  rcases steady_or_closes a s with h | ⟨-, tasks, turns, he⟩
  · rw [h.ring]
    exact hshut
  · rw [he]
    exact isClosed_expire s

/-- A closed ring stays closed. -/
theorem Orderly.isClosed_weave (h : s.Orderly) (hshut : s.ring.isClosed = true) (hstep : Weave origin may s t) :
    t.ring.isClosed = true := by
  cases h.stepCase hstep with
  | feed hk hr => rw [ring_feedStep hk, (Feed.worked_advance h.ring origin hr).isClosed, hshut]
  | read _ _ hturn => exact hturn.isClosed hshut
  | close => rw [isClosed_closeStep, hshut]
  | expire => exact isClosed_expire s
  | wait => exact hshut
  | @act a _ => exact isClosed_act hshut a

theorem Orderly.live (h : s.Orderly) (hstep : Weave origin may s t) (hlive : t.ring.isClosed = false) :
    s.ring.isClosed = false := by
  cases hshut : s.ring.isClosed with
  | false => rfl
  | true => cases (h.isClosed_weave hshut hstep).symm.trans hlive

/-- A step starts no feed, or it is the turn of a read that finds the slot empty and replaces the feed. -/
theorem Orderly.quiet_or_restarts (h : s.Orderly) (hstep : Weave origin may s t) :
    Quiet s t ∨ s.slot = none ∧ ∃ i r, s.tasks[i]? = some (.read r) ∧ Restarted origin s i r t := by
  refine (hstep.quiet_or_restarts fun _ _ hi hready => h.readTurn hi hready).imp_right ?_
  rintro ⟨i, r, -, hi, hold, hr⟩
  exact ⟨h.slot_of_restart hi hold, i, r, hi, hr⟩

/-- A turn that replaces the feed starts one feed at most. -/
theorem Restarted.feeds_le (hr : Restarted origin s i r t) :
    s.feeds.length ≤ t.feeds.length ∧ t.feeds.length ≤ s.feeds.length + 1 := by
  cases hr with
  | shut => exact ⟨Nat.le_refl _, Nat.le_succ _⟩
  | refused =>
    rw [finish_eq, feeds_endTask, feeds_note, feeds_rebound, List.length_map]
    exact ⟨Nat.le_refl _, Nat.le_succ _⟩
  | connected _ _ hlook =>
    rw [hlook.quiet.feeds, feeds_joined, List.length_append, List.length_map]
    exact ⟨Nat.le_succ _, Nat.le_refl _⟩

theorem Orderly.feeds_le (h : s.Orderly) (hstep : Weave origin may s t) : s.feeds.length ≤ t.feeds.length := by
  rcases h.quiet_or_restarts hstep with hquiet | ⟨-, i, r, -, hr⟩
  · exact Nat.le_of_eq hquiet.feeds.symm
  · exact hr.feeds_le.1

theorem Restarted.attempts_le (hr : Restarted origin s i r t) : s.attempts ≤ t.attempts := by
  cases hr with
  | shut => exact Nat.le_refl _
  | refused =>
    rw [finish_eq, attempts_endTask, attempts_note, attempts_rebound]
    exact Nat.le_succ _
  | connected _ _ hlook =>
    rw [hlook.quiet.attempts, attempts_joined]
    exact Nat.le_succ _

theorem Orderly.attempts_le (h : s.Orderly) (hstep : Weave origin may s t) : s.attempts ≤ t.attempts := by
  rcases h.quiet_or_restarts hstep with hquiet | ⟨-, i, r, -, hr⟩
  · exact Nat.le_of_eq hquiet.attempts.symm
  · exact hr.attempts_le

/-- On a closed ring no feed is started. -/
theorem Orderly.quiet_weave (h : s.Orderly) (hshut : s.ring.isClosed = true) (hstep : Weave origin may s t) :
    Quiet s t := by
  rcases h.quiet_or_restarts hstep with hquiet | ⟨-, i, r, -, hr⟩
  · exact hquiet
  · cases hr with
    | shut => exact quiet_of_eq rfl rfl rfl rfl
    | refused hopen => exact absurd hshut (by simp [hopen])
    | connected hopen => exact absurd hshut (by simp [hopen])

/-! ### The other steps -/

theorem Orderly.rering {woke : Bool} (h : s.Orderly) (ht : Reringed s t woke) (hkept : t.Tended)
    (hstart : t.ring.start = s.ring.start) : t.Orderly := by
  refine ⟨hkept, ?_, fun x hx => ?_, fun r hr hgo => ?_⟩
  · rw [ht.tasks, ht.turns]
    exact h.lined.wake woke
  · obtain ⟨y, hy, rfl⟩ := mem_told ht.tasks hx
    exact (suits_told woke).mpr ((h.begun y hy).of_eq ht.slot hstart)
  · obtain ⟨r', hr', hover, -, hlen, hposition, -⟩ := read_of_told ht.tasks hr
    rw [hlen, hposition, ht.stream]
    exact h.asked r' hr' (hover.trans hgo)

theorem Orderly.feedStep {k : Nat} (h : s.Orderly) (hready : s.feedReady k = true) : (s.feedStep origin k).Orderly := by
  obtain ⟨f, hk, hr⟩ := exists_of_feedReady hready
  refine h.rering (reringed_feedStep h.ring hk hr) (h.toTended.feedStep hready) ?_
  rw [ring_feedStep hk, (Feed.worked_advance h.ring origin hr).start]

theorem Orderly.expire (h : s.Orderly) : s.expire.Orderly := by
  refine h.rering (reringed_expire h.ring) h.toTended.expire ?_
  rw [Session.expire, ring_cancelAll, ring_setRing, Ring.start_close]

theorem Orderly.push {turns : List Nat} (h : s.Orderly) (hlined : Lined (s.tasks ++ [new]) turns)
    (hrest : new.isOver = true ∨ new.isQueued = true)
    (hasked : ∀ r, new = .read r → (Task.read r).isOver = false → 0 < r.len ∧ r.position < s.stream.size) :
    Orderly { s with tasks := s.tasks ++ [new], turns } := by
  refine ⟨h.toTended.of_eq rfl rfl rfl rfl, hlined, fun x hx => ?_, fun r hr hgo => ?_⟩
  · rcases List.mem_append.mp hx with hx | hx
    · exact (h.begun x hx).of_eq rfl rfl
    · obtain rfl := List.mem_singleton.mp hx
      exact hrest.elim suits_of_isOver suits_of_isQueued
  · rcases List.mem_append.mp hr with hr | hr
    · exact h.asked r hr hgo
    · exact hasked r (List.mem_singleton.mp hr).symm hgo

theorem Orderly.push_over (h : s.Orderly) (hover : new.isOver = true) :
    Orderly { s with tasks := s.tasks ++ [new] } :=
  h.push (h.lined.push_over hover) (Or.inl hover) fun r hr hgo => by
    rw [← hr, hover] at hgo
    cases hgo

theorem Orderly.start (h : s.Orderly) (len position : Nat) (timeout : Option Duration) :
    (s.start len position timeout).Orderly := by
  unfold Session.start
  simp only
  split
  · exact h.push_over rfl
  · split
    · exact h.push_over rfl
    · split
      · exact h.push_over rfl
      · rename_i hposition hlen
        refine h.push (h.lined.push rfl) (Or.inr rfl) ?_
        rintro r hr -
        obtain rfl := Task.read.inj hr
        exact ⟨Nat.pos_of_ne_zero hlen, Nat.lt_of_not_le hposition⟩

theorem Orderly.abandon (h : s.Orderly) (i : Nat) : (s.abandon i).2.Orderly := by
  unfold Session.abandon
  split
  · rename_i r hi
    split
    · exact h
    · rename_i hgo
      have hmem : i ∈ s.turns := (h.lined.mem_iff i).mpr ⟨_, hi, by simpa using hgo⟩
      refine ⟨h.toTended.of_eq rfl rfl rfl rfl, h.lined.erase hmem rfl, fun x hx => ?_, fun r' hr' hgo' => ?_⟩
      · rcases mem_set_cases hx with rfl | hx
        · trivial
        · exact (h.begun x hx).of_eq rfl rfl
      · rcases mem_set_cases hr' with hnew | hr'
        · obtain rfl := Task.read.inj hnew
          cases hgo'
        · exact h.asked r' hr' hgo'
  · exact h

theorem Orderly.startClose (h : s.Orderly) : s.startClose.Orderly := by
  unfold Session.startClose
  split
  · exact h.push_over rfl
  · have hexpired := h.expire
    have hclosed : Orderly { s.expire with closed := true } :=
      ⟨⟨hexpired.ring, fun _ => isClosed_expire s, hexpired.stopping, hexpired.stray⟩, hexpired.lined,
        fun x hx => (hexpired.begun x hx).of_eq rfl rfl, hexpired.asked⟩
    exact hclosed.push (hclosed.lined.push rfl) (Or.inr rfl) fun r hr => nomatch hr

theorem Orderly.act (h : s.Orderly) (a : Act) : (s.act a).Orderly := by
  cases a with
  | start len position timeout => exact h.start len position timeout
  | abandon i => exact h.abandon i
  | close => exact h.startClose
  | letGo => exact ⟨h.toTended.of_eq rfl rfl rfl rfl, h.lined, fun x hx => (h.begun x hx).of_eq rfl rfl, h.asked⟩

/-- Every step keeps a session orderly, whatever its owner does. -/
theorem Orderly.weave (h : s.Orderly) (hstep : Weave origin may s t) : t.Orderly := by
  cases hstep with
  | @move m hm =>
    cases m with
    | feed k => exact h.feedStep hm
    | task i => exact h.turn hm.1 hm.2
    | stream => exact h.expire
  | wait => exact ⟨h.toTended.of_eq rfl rfl rfl rfl, h.lined, fun x hx => (h.begun x hx).of_eq rfl rfl, h.asked⟩
  | @act a _ => exact h.act a

theorem Orderly.weaves (h : s.Orderly) (hweaves : Weaves origin may s t) : t.Orderly := by
  induction hweaves with
  | refl => exact h
  | tail _ hstep ih => exact ih.weave hstep

/-- In a settled session the feeds outside the slot have stopped. -/
theorem Orderly.isStopped {k : Nat} {f : Feed σ} (h : s.Orderly) (hrest : s.IsSettled) (hk : s.feeds[k]? = some f)
    (hslot : s.slot ≠ some k) : f.isStopped = true :=
  isStopped_of_isSettled hrest hk ((h.stray k f hk).resolve_left hslot)

/-- So no task waits in a settled session for a feed that has not stopped. -/
theorem Orderly.freed (h : s.Orderly) (hrest : s.IsSettled) (hx : x ∈ s.tasks) : s.Freed x := by
  intro k hk
  have hslot := (h.begun x hx).vacated hk
  unfold hasStopped
  split
  · rename_i f hf
    exact h.isStopped hrest hf (by rw [hslot]; simp)
  · rfl

end Session
end ReadAhead
