import ReadAhead.Proofs.Feed.Fills
import ReadAhead.Proofs.Session.Line
import ReadAhead.Proofs.Session.Turn

/-! What a session keeps. The feed in the slot comes from the last connection and fills the ring within its
    terms; any other feed has stopped, or was told to and a task waits for that; a feed sleeps on a full
    ring only, and a read only while its bytes are pending within reach of the ring (`Fit`). Here are the
    small changes that a step is made of, and what each of them needs to keep this. -/

namespace ReadAhead

namespace Task

/-- The feed that the task waits for to stop. -/
def old? : Task → Option Nat
  | .read r => match r.phase with
    | .replacing old => some old
    | _ => none
  | .close (.draining old) => some old
  | .close _ => none

/-- Whether the task is a read that waits for its bytes. -/
def isWaiting : Task → Bool
  | .read r => match r.phase with
    | .waiting _ _ => true
    | _ => false
  | .close _ => false

@[simp] theorem old?_wake (t : Task) : t.wake.old? = t.old? := by
  rcases t with ⟨len, position, wait, deadline, phase⟩ | c
  · cases phase <;> rfl
  · rfl

theorem old?_of_isQueued {t : Task} (h : t.isQueued = true) : t.old? = none := by
  rcases t with ⟨len, position, wait, deadline, phase⟩ | c
  · cases phase <;> first | rfl | cases h
  · cases c <;> first | rfl | cases h

theorem old?_of_isOver {t : Task} (h : t.isOver = true) : t.old? = none := by
  rcases t with ⟨len, position, wait, deadline, phase⟩ | c
  · cases phase <;> first | rfl | cases h
  · cases c <;> first | rfl | cases h

/-- A task that waits for a feed to stop has begun, and is not over. -/
theorem begun_of_old? {t : Task} {k : Nat} (h : t.old? = some k) : t.isOver = false ∧ t.isQueued = false := by
  refine ⟨?_, ?_⟩
  · cases hover : t.isOver with
    | false => rfl
    | true => cases (old?_of_isOver hover).symm.trans h
  · cases hq : t.isQueued with
    | false => rfl
    | true => cases (old?_of_isQueued hq).symm.trans h

theorem isWaiting_of_isQueued {t : Task} (h : t.isQueued = true) : t.isWaiting = false := by
  rcases t with ⟨len, position, wait, deadline, phase⟩ | c
  · cases phase <;> first | rfl | cases h
  · rfl

theorem isWaiting_of_isOver {t : Task} (h : t.isOver = true) : t.isWaiting = false := by
  rcases t with ⟨len, position, wait, deadline, phase⟩ | c
  · cases phase <;> first | rfl | cases h
  · rfl

theorem wake_of_not_waiting {t : Task} (h : t.isWaiting = false) : t.wake = t := by
  rcases t with ⟨len, position, wait, deadline, phase⟩ | c
  · cases phase <;> first | rfl | cases h
  · rfl

/-- A read that was told of a change is the read it was. -/
theorem eq_read_of_wake {t : Task} {r : Reading} (h : t.wake = .read r) :
    ∃ r', t = .read r' ∧ r.len = r'.len ∧ r.position = r'.position ∧
      (∀ last woken, r.phase = .waiting last woken → woken = true ∧ ∃ w, r'.phase = .waiting last w) := by
  rcases t with r' | c
  · refine ⟨r', rfl, ?_⟩
    simp only [wake] at h
    split at h
    · rename_i last w hp
      obtain rfl := Task.read.inj h
      refine ⟨rfl, rfl, fun l v hv => ?_⟩
      obtain ⟨rfl, rfl⟩ := Reading.Phase.waiting.inj hv
      exact ⟨rfl, w, hp⟩
    · rename_i hp
      obtain rfl := Task.read.inj h
      exact ⟨rfl, rfl, fun l v hv => absurd hv (hp l v)⟩
  · cases h

end Task

namespace Session
variable {σ : Type} {origin : Origin σ} {terms : Nat → Origin.Terms} {s t : Session σ} {i : Nat}

/-- Every connection that the origin opens within the file of a stream honours the terms of its attempt. -/
def Offers (origin : Origin σ) (terms : Nat → Origin.Terms) (stream : Stream) : Prop :=
  ∀ attempt start source, start < stream.size → origin.connect stream.url attempt start = .ok source →
    origin.Honours (terms attempt) (min stream.scratch stream.tier.capacity) start source

/-- A feed just started on an emptied ring fills it. -/
theorem Offers.fills {stream : Stream} {source : σ} {attempt start : Nat} {ring : Ring}
    (h : Offers origin terms stream) (hcap : ring.capacity = stream.tier.capacity) (hstart : start < stream.size)
    (hconn : origin.connect stream.url attempt start = .ok source) :
    (Feed.fresh source start stream.scratch).Fills origin (terms attempt) (ring.emptied start) := by
  refine Feed.fills_fresh Ring.start_emptied Ring.writePosition_emptied rfl ?_
  rw [Ring.capacity_emptied, hcap]
  exact h attempt start source hstart hconn

/-- A feed that serves the stream: it comes from the last attempt to connect, and fills the ring while that
    is open. -/
structure Serves (origin : Origin σ) (terms : Nat → Origin.Terms) (s : Session σ) (f : Feed σ) : Prop where
  attempted : 0 < s.attempts
  connected : ∃ source, origin.connect s.stream.url (s.attempts - 1) f.start = .ok source
  fills : s.ring.isClosed = false → f.cancelled = false ∧ f.Fills origin (terms (s.attempts - 1)) s.ring

/-- What a read relies on that waits for the bytes up to `last`. -/
structure Awaits (s : Session σ) (r : Reading) (last : Nat) (woken : Bool) : Prop where
  served : s.slot.isSome = true
  low : s.ring.start ≤ r.position
  high : r.position < s.reach
  target : last = s.lastWanted r
  pending : woken = false → s.ring.availability last = .ok .pending

/-- The parts of a session fit each other. -/
structure Fit (origin : Origin σ) (terms : Nat → Origin.Terms) (s : Session σ) : Prop where
  capacity : s.ring.capacity = s.stream.tier.capacity
  margin : s.stream.tier.margin < s.ring.capacity
  ring : s.ring.Sound
  shut : s.closed = true → s.ring.isClosed = true
  stopping : s.ring.isClosed = true → ∀ f ∈ s.feeds, f.cancelled = true
  serving : ∀ k, s.slot = some k → ∃ f, s.feeds[k]? = some f ∧ Serves origin terms s f
  live : ∀ k f, s.feeds[k]? = some f → f.isStopped = false →
    s.slot = some k ∨ s.slot = none ∧ f.cancelled = true ∧ ∃ t ∈ s.tasks, t.old? = some k
  asleep : ∀ f ∈ s.feeds, f.isAsleep = true → s.ring.free = 0
  lined : Lined s.tasks s.turns
  asked : ∀ r, .read r ∈ s.tasks → (Task.read r).isOver = false → 0 < r.len ∧ r.position < s.stream.size
  leaving : ∀ t ∈ s.tasks, ∀ k, t.old? = some k → ∃ f, s.feeds[k]? = some f ∧ f.cancelled = true
  waiting : ∀ r last woken, .read r ∈ s.tasks → r.phase = .waiting last woken → s.Awaits r last woken

theorem fit_onStorage {stream : Stream} {storage : ByteArray} (origin : Origin σ) (terms : Nat → Origin.Terms)
    (hsize : storage.size = stream.tier.capacity) (hmargin : stream.tier.margin < stream.tier.capacity) (now : Nat) :
    Fit origin terms (onStorage stream storage now) where
  capacity := hsize
  margin := Nat.lt_of_lt_of_eq hmargin hsize.symm
  ring := Ring.sound_onStorage storage 0
  shut := fun h => nomatch h
  stopping := fun _ _ hf => nomatch hf
  serving := fun _ h => nomatch h
  live := fun _ _ h => nomatch h
  asleep := fun _ hf => nomatch hf
  lined := lined_nil
  asked := fun _ h => nomatch h
  leaving := fun _ h => nomatch h
  waiting := fun _ _ _ h => nomatch h

/-! ### Notes and time -/

/-- The sessions differ at most in the time, in what was noted and in who holds them. -/
structure Alike (s t : Session σ) : Prop where
  stream : t.stream = s.stream
  attempts : t.attempts = s.attempts
  ring : t.ring = s.ring
  feeds : t.feeds = s.feeds
  slot : t.slot = s.slot
  closed : t.closed = s.closed
  tasks : t.tasks = s.tasks
  turns : t.turns = s.turns

theorem alike_note (s : Session σ) (mark : Mark) : Alike s (s.note mark) := by constructor <;> simp

theorem Alike.awaits {r : Reading} {last : Nat} {woken : Bool} (ht : Alike s t) (h : s.Awaits r last woken) :
    t.Awaits r last woken := by
  refine ⟨?_, ?_, ?_, ?_, ?_⟩
  · rw [ht.slot]
    exact h.served
  · rw [ht.ring]
    exact h.low
  · rw [reach, ht.ring]
    exact h.high
  · rw [lastWanted, wantedEnd, reach, ht.ring, ht.stream]
    exact h.target
  · rw [ht.ring]
    exact h.pending

theorem Alike.serves {f : Feed σ} (ht : Alike s t) (h : Serves origin terms s f) : Serves origin terms t f := by
  refine ⟨?_, ?_, ?_⟩
  · rw [ht.attempts]
    exact h.attempted
  · rw [ht.attempts, ht.stream]
    exact h.connected
  · rw [ht.ring, ht.attempts]
    exact h.fills

theorem Fit.alike (h : Fit origin terms s) (ht : Alike s t) : Fit origin terms t where
  capacity := by rw [ht.ring, ht.stream]; exact h.capacity
  margin := by rw [ht.ring, ht.stream]; exact h.margin
  ring := by rw [ht.ring]; exact h.ring
  shut := by rw [ht.closed, ht.ring]; exact h.shut
  stopping := by rw [ht.feeds, ht.ring]; exact h.stopping
  serving := fun k hk => by
    rw [ht.slot] at hk
    obtain ⟨f, hf, hs⟩ := h.serving k hk
    exact ⟨f, by rw [ht.feeds, hf], ht.serves hs⟩
  live := by rw [ht.feeds, ht.slot, ht.tasks]; exact h.live
  asleep := by rw [ht.feeds, ht.ring]; exact h.asleep
  lined := by rw [ht.tasks, ht.turns]; exact h.lined
  asked := by rw [ht.tasks, ht.stream]; exact h.asked
  leaving := by rw [ht.tasks, ht.feeds]; exact h.leaving
  waiting := fun r last woken hr hp => ht.awaits (h.waiting r last woken (by rwa [ht.tasks] at hr) hp)

theorem Fit.note (h : Fit origin terms s) (mark : Mark) : Fit origin terms (s.note mark) :=
  h.alike (alike_note s mark)

/-! ### Tasks that move on -/

theorem mem_set_cases {tasks : List Task} {new x : Task} (hx : x ∈ tasks.set i new) : x = new ∨ x ∈ tasks :=
  (List.mem_or_eq_of_mem_set hx).symm

/-- A task that stays, or is the one that moves on. -/
theorem mem_set_of_mem {tasks : List Task} {old x : Task} (hi : tasks[i]? = some old) (hx : x ∈ tasks) (new : Task) :
    x ∈ tasks.set i new ∨ x = old := by
  obtain ⟨j, hj⟩ := List.mem_iff_getElem?.mp hx
  by_cases hij : i = j
  · subst hij
    rw [hi] at hj
    exact Or.inr (Option.some.inj hj).symm
  · exact Or.inl (List.mem_iff_getElem?.mpr ⟨j, by rw [List.getElem?_set_ne hij, hj]⟩)

/-- A feed that `old` waits for has stopped, so that nobody need wait for it any more. -/
def Freed (s : Session σ) (old : Task) : Prop := ∀ k, old.old? = some k → s.hasStopped k = true

theorem freed_of_none {old : Task} (h : old.old? = none) : s.Freed old := fun k hk => by
  rw [h] at hk
  cases hk

/-- Task `i` moves on, and nothing else changes. -/
theorem Fit.retask {old new : Task} (h : Fit origin terms s) (hi : s.tasks[i]? = some old) (hold : s.Freed old)
    {turns : List Nat} (hlined : Lined (s.tasks.set i new) turns) (hnone : new.old? = none)
    (hasked : ∀ r, new = .read r → (Task.read r).isOver = false → 0 < r.len ∧ r.position < s.stream.size)
    (hwaiting : ∀ r last woken, new = .read r → r.phase = .waiting last woken → s.Awaits r last woken) :
    Fit origin terms { s with tasks := s.tasks.set i new, turns } where
  capacity := h.capacity
  margin := h.margin
  ring := h.ring
  shut := h.shut
  stopping := h.stopping
  serving := fun k hk => (h.serving k hk).imp fun f hf => ⟨hf.1, hf.2.attempted, hf.2.connected, hf.2.fills⟩
  live := fun k f hk hrun => by
    rcases h.live k f hk hrun with hslot | ⟨hslot, hc, x, hx, hxk⟩
    · exact Or.inl hslot
    · rcases mem_set_of_mem hi hx new with hmem | rfl
      · exact Or.inr ⟨hslot, hc, x, hmem, hxk⟩
      · have hstop := hold k hxk
        simp only [hasStopped, hk] at hstop
        rw [hrun] at hstop
        cases hstop
  asleep := h.asleep
  lined := hlined
  asked := fun r hr hgo => by
    rcases mem_set_cases hr with hnew | hr
    · exact hasked r hnew.symm hgo
    · exact h.asked r hr hgo
  leaving := fun x hx k hk => by
    rcases mem_set_cases hx with rfl | hx
    · rw [hnone] at hk
      cases hk
    · exact h.leaving x hx k hk
  waiting := fun r last woken hr hp => by
    have hw : s.Awaits r last woken := by
      rcases mem_set_cases hr with hnew | hr
      · exact hwaiting r last woken hnew.symm hp
      · exact h.waiting r last woken hr hp
    exact ⟨hw.served, hw.low, hw.high, hw.target, hw.pending⟩

theorem Fit.endTask {old task : Task} (h : Fit origin terms s) (hi : s.tasks[i]? = some old) (hmem : i ∈ s.turns)
    (hold : s.Freed old) (hover : task.isOver = true) : Fit origin terms (s.endTask i task) := by
  refine h.retask hi hold (h.lined.erase hmem hover) (Task.old?_of_isOver hover) ?_ ?_
  · rintro r rfl hgo
    rw [hover] at hgo
    cases hgo
  · rintro r last woken rfl hp
    simp [Task.isOver, hp] at hover

theorem Fit.awaiting {old : Task} {r : Reading} {last : Nat} (h : Fit origin terms s) (hi : s.tasks[i]? = some old)
    (hhead : s.turns.head? = some i) (hold : s.Freed old) (hasked : 0 < r.len ∧ r.position < s.stream.size)
    (hwaits : s.Awaits r last false) :
    Fit origin terms (s.setTask i (.read { r with phase := .waiting last false })) := by
  refine h.retask hi hold (h.lined.set hhead rfl) rfl ?_ ?_
  · rintro r' hr -
    obtain rfl := Task.read.inj hr
    exact hasked
  · rintro r' l w hr hp
    obtain rfl := Task.read.inj hr
    obtain ⟨rfl, rfl⟩ := Reading.Phase.waiting.inj hp
    exact ⟨hwaits.served, hwaits.low, hwaits.high, hwaits.target, hwaits.pending⟩

/-! ### Tasks that are told of a change -/

section Told
variable {woke : Bool} (ht : t.tasks = s.tasks.map fun x => if woke then x.wake else x)

theorem old?_told (woke : Bool) (x : Task) : (if woke then x.wake else x).old? = x.old? := by cases woke <;> simp

include ht in
theorem mem_told {x : Task} (hx : x ∈ t.tasks) : ∃ y ∈ s.tasks, x = if woke then y.wake else y := by
  rw [ht] at hx
  obtain ⟨y, hy, rfl⟩ := List.mem_map.mp hx
  exact ⟨y, hy, rfl⟩

include ht in
theorem old?_of_told {x : Task} (hx : x ∈ t.tasks) : ∃ y ∈ s.tasks, x.old? = y.old? := by
  obtain ⟨y, hy, rfl⟩ := mem_told ht hx
  exact ⟨y, hy, old?_told woke y⟩

include ht in
theorem told_of_old? {y : Task} (hy : y ∈ s.tasks) : ∃ x ∈ t.tasks, x.old? = y.old? := by
  refine ⟨if woke then y.wake else y, ?_, old?_told woke y⟩
  rw [ht]
  exact List.mem_map_of_mem hy

include ht in
/-- A read among the tasks was there before with the same wish, and if it waits, it waited for the same
    bytes and was told if anyone was. -/
theorem read_of_told {r : Reading} (hr : .read r ∈ t.tasks) :
    ∃ r', .read r' ∈ s.tasks ∧ (Task.read r').isOver = (Task.read r).isOver ∧
      (Task.read r').old? = (Task.read r).old? ∧ r.len = r'.len ∧ r.position = r'.position ∧
      ∀ last woken, r.phase = .waiting last woken →
        ∃ w, r'.phase = .waiting last w ∧ (woken = false → woke = false ∧ w = false) := by
  obtain ⟨x, hx, he⟩ := mem_told ht hr
  cases woke with
  | true =>
    simp only [if_true] at he
    obtain ⟨r', rfl, hlen, hpos, hwait⟩ := Task.eq_read_of_wake he.symm
    have hover := congrArg Task.isOver he
    have hold := congrArg Task.old? he
    rw [Task.isOver_wake] at hover
    rw [Task.old?_wake] at hold
    refine ⟨r', hx, hover.symm, hold.symm, hlen, hpos, fun last woken hp => ?_⟩
    obtain ⟨htold, w, hw⟩ := hwait last woken hp
    exact ⟨w, hw, fun hno => by rw [htold] at hno; cases hno⟩
  | false =>
    simp only [Bool.false_eq_true, if_false] at he
    subst he
    exact ⟨r, hx, rfl, rfl, rfl, rfl, fun last woken hp => ⟨woken, hp, fun hno => ⟨rfl, hno⟩⟩⟩

include ht in
/-- A read that waits goes on to wait where the ring has its read cursor and its capacity as before, and is
    as before unless everyone was told. -/
theorem awaits_told (hslot : t.slot = s.slot) (hstream : t.stream = s.stream) (hreach : t.reach = s.reach)
    (hstart : t.ring.start = s.ring.start) (hsame : woke = false → t.ring = s.ring)
    (h : ∀ r last woken, .read r ∈ s.tasks → r.phase = .waiting last woken → s.Awaits r last woken)
    {r : Reading} {last : Nat} {woken : Bool} (hr : .read r ∈ t.tasks) (hp : r.phase = .waiting last woken) :
    t.Awaits r last woken := by
  obtain ⟨r', hr', -, -, hlen, hpos, hwait⟩ := read_of_told ht hr
  obtain ⟨w, hw, htold⟩ := hwait last woken hp
  have ha := h r' last w hr' hw
  refine ⟨by rw [hslot]; exact ha.served, ?_, ?_, ?_, fun hno => ?_⟩
  · rw [hstart, hpos]
    exact ha.low
  · rw [hreach, hpos]
    exact ha.high
  · rw [ha.target]
    simp only [lastWanted, wantedEnd, hreach, hlen, hpos, hstream]
  · obtain ⟨hno, hw'⟩ := htold hno
    rw [hsame hno]
    exact ha.pending hw'

end Told

/-! ### The ring and the feeds move on -/

/-- `t` is `s` with its ring and its feeds moved on; whoever waits on the ring is told if it `woke`. -/
structure Reringed (s t : Session σ) (woke : Bool) : Prop where
  stream : t.stream = s.stream
  attempts : t.attempts = s.attempts
  slot : t.slot = s.slot
  closed : t.closed = s.closed
  turns : t.turns = s.turns
  tasks : t.tasks = s.tasks.map fun x => if woke then x.wake else x
  sound : t.ring.Sound
  capacity : t.ring.capacity = s.ring.capacity
  shut : s.ring.isClosed = true → t.ring.isClosed = true
  unchanged : woke = false → t.ring = s.ring
  onward : ∀ (k : Nat) (f : Feed σ), s.feeds[k]? = some f → ∃ g, t.feeds[k]? = some g ∧ f.Follows g
  back : ∀ (k : Nat) (g : Feed σ), t.feeds[k]? = some g → ∃ f : Feed σ, s.feeds[k]? = some f ∧ f.Follows g

/-- Where every feed was told to stop, every feed still is. -/
theorem Reringed.stopping {woke : Bool} (ht : Reringed s t woke) (hs : ∀ f ∈ s.feeds, f.cancelled = true) :
    ∀ g ∈ t.feeds, g.cancelled = true := by
  intro g hg
  obtain ⟨k, hk⟩ := List.mem_iff_getElem?.mp hg
  obtain ⟨f, hf, hfollows⟩ := ht.back k g hk
  exact hfollows.cancelled (hs f (List.mem_of_getElem? hf))

/-- What a move of the ring and the feeds has to see to: the feed that serves the stream still fills an open
    ring, every feed is told to stop with a shut one, feeds sleep on a full ring only, and reads that wait find
    the read cursor where it was. -/
theorem Fit.rering {woke : Bool} (h : Fit origin terms s) (ht : Reringed s t woke)
    (hstopping : t.ring.isClosed = true → ∀ g ∈ t.feeds, g.cancelled = true)
    (hfills : ∀ k g, s.slot = some k → t.feeds[k]? = some g → t.ring.isClosed = false →
      g.cancelled = false ∧ g.Fills origin (terms (s.attempts - 1)) t.ring)
    (hasleep : ∀ g ∈ t.feeds, g.isAsleep = true → t.ring.free = 0)
    (hwindow : t.ring.start = s.ring.start ∨ ∀ x ∈ s.tasks, x.isWaiting = false) : Fit origin terms t where
  capacity := by rw [ht.capacity, ht.stream]; exact h.capacity
  margin := by rw [ht.capacity, ht.stream]; exact h.margin
  ring := ht.sound
  shut := fun hc => ht.shut (h.shut (by rw [← ht.closed, hc]))
  stopping := hstopping
  serving := fun k hk => by
    rw [ht.slot] at hk
    obtain ⟨f, hf, hs⟩ := h.serving k hk
    obtain ⟨g, hg, hfollows⟩ := ht.onward k f hf
    refine ⟨g, hg, ?_, ?_, fun hopen => ?_⟩
    · rw [ht.attempts]
      exact hs.attempted
    · rw [ht.attempts, ht.stream, hfollows.start]
      exact hs.connected
    · rw [ht.attempts]
      exact hfills k g hk hg hopen
  live := fun k g hg hrun => by
    obtain ⟨f, hf, hfollows⟩ := ht.back k g hg
    have hrun' : f.isStopped = false := by
      cases hstop : f.isStopped with
      | false => rfl
      | true =>
        rw [hfollows.stopped hstop] at hrun
        cases hrun
    rw [ht.slot]
    rcases h.live k f hf hrun' with hslot | ⟨hslot, hc, x, hx, hxk⟩
    · exact Or.inl hslot
    · obtain ⟨y, hy, hyx⟩ := told_of_old? ht.tasks hx
      exact Or.inr ⟨hslot, hfollows.cancelled hc, y, hy, by rw [hyx, hxk]⟩
  asleep := hasleep
  lined := by rw [ht.tasks, ht.turns]; exact h.lined.wake woke
  asked := fun r hr hgo => by
    obtain ⟨r', hr', hover, -, hlen, hpos, -⟩ := read_of_told ht.tasks hr
    rw [hlen, hpos, ht.stream]
    exact h.asked r' hr' (by rw [hover, hgo])
  leaving := fun x hx k hk => by
    obtain ⟨y, hy, hyx⟩ := old?_of_told ht.tasks hx
    obtain ⟨f, hf, hc⟩ := h.leaving y hy k (by rw [← hyx, hk])
    obtain ⟨g, hg, hfollows⟩ := ht.onward k f hf
    exact ⟨g, hg, hfollows.cancelled hc⟩
  waiting := fun r last woken hr hp => by
    have hstart : t.ring.start = s.ring.start := by
      rcases hwindow with hstart | hnone
      · exact hstart
      · obtain ⟨r', hr', -, -, -, -, hwait⟩ := read_of_told ht.tasks hr
        obtain ⟨w, hw, -⟩ := hwait last woken hp
        have hn := hnone _ hr'
        simp [Task.isWaiting, hw] at hn
    exact awaits_told ht.tasks ht.slot ht.stream (by rw [reach, reach, hstart, ht.capacity]) hstart ht.unchanged
      h.waiting hr hp

theorem reringed_setRing {ring : Ring} {woke : Bool} (hring : ring.Sound) (hcap : ring.capacity = s.ring.capacity)
    (hshut : s.ring.isClosed = true → ring.isClosed = true) (hsame : woke = false → ring = s.ring) :
    Reringed s (s.setRing ring woke) woke := by
  have hfollows : ∀ f : Feed σ, f.Follows (if woke then f.wake else f) := by
    intro f
    cases woke with
    | true => exact (Feed.same_wake f).follows
    | false => exact (Feed.Same.refl f).follows
  refine ⟨stream_setRing .., attempts_setRing .., slot_setRing .., closed_setRing .., turns_setRing .., tasks_setRing ..,
    ?_, ?_, ?_, ?_, fun k f hf => ?_, fun k g hg => ?_⟩
  · rwa [ring_setRing]
  · rwa [ring_setRing]
  · rwa [ring_setRing]
  · rwa [ring_setRing]
  · exact ⟨_, by rw [feeds_setRing, List.getElem?_map, hf]; rfl, hfollows f⟩
  · rw [feeds_setRing, List.getElem?_map] at hg
    obtain ⟨f, hf, rfl⟩ := Option.map_eq_some_iff.mp hg
    exact ⟨f, hf, hfollows f⟩

theorem Reringed.cancelAll {woke : Bool} (ht : Reringed s t woke) : Reringed s t.cancelAll woke := by
  refine ⟨ht.stream, ht.attempts, ht.slot, ht.closed, ht.turns, ht.tasks, ht.sound, ht.capacity, ht.shut, ht.unchanged,
    fun k f hf => ?_, fun k g hg => ?_⟩
  · obtain ⟨g, hg, hfollows⟩ := ht.onward k f hf
    exact ⟨g.cancel, by rw [feeds_cancelAll, List.getElem?_map, hg]; rfl, hfollows.cancel⟩
  · rw [feeds_cancelAll, List.getElem?_map] at hg
    obtain ⟨g', hg', rfl⟩ := Option.map_eq_some_iff.mp hg
    obtain ⟨f, hf, hfollows⟩ := ht.back k g' hg'
    exact ⟨f, hf, hfollows.cancel⟩

theorem Reringed.setFeed {woke : Bool} {k : Nat} {f feed : Feed σ} (ht : Reringed s t woke) (hk : s.feeds[k]? = some f)
    (hfollows : f.Follows feed) : Reringed s (t.setFeed k feed) woke := by
  obtain ⟨g₀, hg₀, -⟩ := ht.onward k f hk
  have hlt : k < t.feeds.length := (List.getElem?_eq_some_iff.mp hg₀).1
  refine ⟨ht.stream, ht.attempts, ht.slot, ht.closed, ht.turns, ht.tasks, ht.sound, ht.capacity, ht.shut, ht.unchanged,
    fun j g hg => ?_, fun j g hg => ?_⟩
  · rw [feeds_setFeed]
    by_cases hj : k = j
    · subst hj
      obtain rfl := Option.some.inj (hk.symm.trans hg)
      exact ⟨feed, List.getElem?_set_self hlt, hfollows⟩
    · rw [List.getElem?_set_ne hj]
      exact ht.onward j g hg
  · rw [feeds_setFeed] at hg
    by_cases hj : k = j
    · subst hj
      rw [List.getElem?_set_self hlt] at hg
      obtain rfl := Option.some.inj hg
      exact ⟨f, hk, hfollows⟩
    · rw [List.getElem?_set_ne hj] at hg
      exact ht.back j g hg

theorem isAsleep_setRing {ring : Ring} {g : Feed σ} (hg : g ∈ (s.setRing ring true).feeds) : g.isAsleep = false := by
  rw [feeds_setRing] at hg
  obtain ⟨f, -, rfl⟩ := List.mem_map.mp hg
  simp

/-- A change of the ring of which everyone is told. -/
theorem Fit.setRing {ring : Ring} (h : Fit origin terms s) (hring : ring.Sound)
    (hcap : ring.capacity = s.ring.capacity) (hclosed : ring.isClosed = s.ring.isClosed)
    (hfills : ∀ k f, s.slot = some k → s.feeds[k]? = some f → ring.isClosed = false →
      f.Fills origin (terms (s.attempts - 1)) ring)
    (hwindow : ring.start = s.ring.start ∨ ∀ x ∈ s.tasks, x.isWaiting = false) :
    Fit origin terms (s.setRing ring true) := by
  have ht : Reringed s (s.setRing ring true) true :=
    reringed_setRing hring hcap (fun hshut => hclosed.trans hshut) fun hno => nomatch hno
  refine h.rering ht (fun hshut => ?_) ?_ ?_ ?_
  · rw [ring_setRing, hclosed] at hshut
    exact ht.stopping (h.stopping hshut)
  · intro k g hk hg hopen
    rw [ring_setRing] at hopen ⊢
    rw [feeds_setRing, List.getElem?_map] at hg
    obtain ⟨f, hf, rfl⟩ := Option.map_eq_some_iff.mp hg
    obtain ⟨f', hf', hs⟩ := h.serving k hk
    obtain rfl := Option.some.inj (hf'.symm.trans hf)
    obtain ⟨hgo, -⟩ := hs.fills (by rw [← hclosed, hopen])
    exact ⟨(Feed.same_wake f').cancelled.trans hgo, (hfills k f' hk hf hopen).wake⟩
  · intro g hg hs
    rw [isAsleep_setRing hg] at hs
    cases hs
  · rw [ring_setRing]
    exact hwindow

end Session
end ReadAhead
