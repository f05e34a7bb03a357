import ReadAhead.Proofs.Session.Sound

/-! The machine that a stream behaves like when its source serves the whole file and does not fail. It has no
    ring, no feed and no clock: only a window, which is where the ring would begin, the offsets it has opened
    connections at, and its reads. A read that finds its position in the window keeps it, and any other opens
    one connection a margin before the position. How many bytes a read gets follows from the window, the file
    and the read. A read may also run out of time or be dropped, and then leaves the window as it is. -/

namespace ReadAhead

/-- What a read of the reference machine has come to. An answer is a number of bytes, and whether they reach
    the end of the file. -/
inductive Reference.Stage
  | queued
  | begun
  | done (answer : Except Failure (Nat × Bool))
  | dropped

/-- A read of `len` bytes at `position`. -/
structure Reference.Ask where
  len : Nat
  position : Nat
  stage : Reference.Stage

/-- The reference machine. What stands in line beside reads has no ask. -/
@[ext] structure Reference where
  window : Option Nat
  opened : List Nat
  asks : List (Option Reference.Ask)
  closed : Bool

namespace Reference

def fresh : Reference := ⟨none, [], [], false⟩

def Stage.isOver : Stage → Bool
  | .done _ | .dropped => true
  | .queued | .begun => false

/-- What a read comes to as soon as it is asked for. -/
def outset (stream : Stream) (closed : Bool) (len position : Nat) : Stage :=
  if closed then .done (.error .closed)
  else if stream.size ≤ position then .done (.ok (0, true))
  else if len = 0 then .done (.ok (0, false))
  else .queued

/-- Whether a window from `start` on reaches over a position. -/
def Covers (stream : Stream) (start position : Nat) : Prop :=
  start ≤ position ∧ position < start + stream.tier.capacity

instance (stream : Stream) (start position : Nat) : Decidable (Covers stream start position) :=
  inferInstanceAs (Decidable (_ ∧ _))

/-- Where the window is for a read at `position`, and the connection opened for it, if one is. -/
def enter (stream : Stream) (window : Option Nat) (position : Nat) : Nat × List Nat :=
  match window.filter fun start => Covers stream start position with
  | some start => (start, [])
  | none => (position - stream.tier.margin, [position - stream.tier.margin])

/-- How many bytes a read gets out of a window that starts at `start`. -/
def share (stream : Stream) (start len position : Nat) : Nat :=
  min len (min (stream.size - position) (start + stream.tier.capacity - position))

/-- The machine with read `i` at another stage. -/
def become (m : Reference) (i : Nat) (ask : Ask) (stage : Stage) : Reference :=
  { m with asks := m.asks.set i (some { ask with stage }) }

/-- One step of the machine. Reads begin in the order in which they were asked for, one after the other. -/
inductive Step (stream : Stream) (m : Reference) : Reference → Prop
  | ask (len position : Nat) :
    Step stream m { m with asks := m.asks ++ [some ⟨len, position, outset stream m.closed len position⟩] }
  | begin {i : Nat} {ask : Ask} (hopen : m.closed = false) (hi : m.asks[i]? = some (some ask))
    (hqueued : ask.stage = .queued)
    (hfirst : ∀ j other, j < i → m.asks[j]? = some (some other) → other.stage.isOver = true) :
    Step stream m { m.become i ask .begun with
      window := some (enter stream m.window ask.position).1
      opened := m.opened ++ (enter stream m.window ask.position).2 }
  | answer {i start : Nat} {ask : Ask} (hopen : m.closed = false) (hi : m.asks[i]? = some (some ask))
    (hbegun : ask.stage = .begun) (hwindow : m.window = some start) :
    Step stream m { m.become i ask (.done (.ok (share stream start ask.len ask.position,
        decide (ask.position + share stream start ask.len ask.position = stream.size)))) with
      window := some (ask.position + share stream start ask.len ask.position) }
  | expire {i millis : Nat} {ask : Ask} (hopen : m.closed = false) (hi : m.asks[i]? = some (some ask))
    (hbegun : ask.stage = .begun) :
    Step stream m (m.become i ask (.done (.error (.timeout ask.position millis))))
  | drop {i : Nat} {ask : Ask} (hi : m.asks[i]? = some (some ask)) (hgo : ask.stage.isOver = false) :
    Step stream m (m.become i ask .dropped)
  | close : Step stream m { m with window := none, asks := m.asks ++ [none], closed := true }
  | refuse {i : Nat} {ask : Ask} (hclosed : m.closed = true) (hi : m.asks[i]? = some (some ask))
    (hgo : ask.stage.isOver = false) : Step stream m (m.become i ask (.done (.error .closed)))

abbrev Reaches (stream : Stream) : Reference → Reference → Prop := Relation.ReflTransGen (Step stream)

end Reference

/-! ### A session seen as the machine -/

/-- The stage of a read in a phase. A read that replaces the feed is still to begin. -/
def Reading.Phase.stage : Reading.Phase → Reference.Stage
  | .queued | .replacing _ => .queued
  | .waiting _ _ => .begun
  | .done result => .done (result.map fun d => (d.bytes.size, d.eof))
  | .abandoned => .dropped

/-- A task as the machine sees it. -/
def Task.ask? : Task → Option Reference.Ask
  | .read r => some ⟨r.len, r.position, r.phase.stage⟩
  | .close _ => none

namespace Session
variable {σ : Type}

/-- The window of an open stream begins where its ring does, as long as it has a feed or replaces one. -/
def window (s : Session σ) : Option Nat :=
  if s.closed then none
  else if s.slot.isSome || s.tasks.any (·.old?.isSome) then some s.ring.start
  else none

def reference (s : Session σ) : Reference where
  window := s.window
  opened := s.feeds.map Feed.start
  asks := s.tasks.map Task.ask?
  closed := s.closed

end Session

@[simp] theorem Task.ask?_wake (t : Task) : t.wake.ask? = t.ask? := by
  rcases t with ⟨len, position, wait, deadline, phase⟩ | c
  · cases phase <;> rfl
  · rfl

theorem Task.isOver_of_ask? {t : Task} {ask : Reference.Ask} (h : t.ask? = some ask) : ask.stage.isOver = t.isOver := by
  rcases t with ⟨len, position, wait, deadline, phase⟩ | c
  · obtain rfl := Option.some.inj h
    cases phase <;> rfl
  · cases h

namespace Session
variable {σ : Type} {s t : Session σ} {i : Nat}

/-! ### What the machine sees of a change -/

theorem window_of_closed (h : s.closed = true) : s.window = none := by
  rw [window, if_pos h]

theorem window_of_slot (hopen : s.closed = false) (hslot : s.slot.isSome = true) : s.window = some s.ring.start := by
  simp [window, hopen, hslot]

theorem window_congr (hclosed : t.closed = s.closed) (hslot : t.slot = s.slot) (hstart : t.ring.start = s.ring.start)
    (hany : (t.tasks.any (·.old?.isSome)) = s.tasks.any (·.old?.isSome)) : t.window = s.window := by
  rw [window, window, hclosed, hslot, hstart, hany]

theorem any_set {α : Type} {l : List α} {a b : α} {p : α → Bool} (h : l[i]? = some a) (hp : p b = p a) :
    (l.set i b).any p = l.any p := by
  have hmap : (l.set i b).map p = l.map p := by
    rw [List.map_set, hp]
    exact set_of_getElem? (by simp [h])
  have hany : ∀ m : List α, m.any p = (m.map p).any id := fun m => by simp
  rw [hany, hany, hmap]

theorem getElem?_asks {r : Reading} (hi : s.tasks[i]? = some (.read r)) :
    s.reference.asks[i]? = some (some ⟨r.len, r.position, r.phase.stage⟩) := by
  show (s.tasks.map Task.ask?)[i]? = _
  rw [List.getElem?_map, hi]
  rfl

theorem asks_set (s : Session σ) (i : Nat) (r : Reading) (phase : Reading.Phase) :
    (s.tasks.set i (.read { r with phase })).map Task.ask? =
      s.reference.asks.set i (some ⟨r.len, r.position, phase.stage⟩) := by
  rw [List.map_set]
  rfl

section Told
variable {woke : Bool} (ht : t.tasks = s.tasks.map fun x => if woke then x.wake else x)

include ht in
theorem asks_told : t.tasks.map Task.ask? = s.tasks.map Task.ask? := by
  rw [ht, List.map_map]
  congr 1
  funext x
  cases woke <;> simp

include ht in
theorem any_old?_told : (t.tasks.any (·.old?.isSome)) = s.tasks.any (·.old?.isSome) := by
  rw [ht, List.any_map]
  congr 1
  funext x
  cases woke <;> simp

end Told

theorem asks_setRing (s : Session σ) (ring : Ring) (woke : Bool) :
    (s.setRing ring woke).tasks.map Task.ask? = s.tasks.map Task.ask? := asks_told (tasks_setRing s ring woke)

theorem opened_setRing (s : Session σ) (ring : Ring) (woke : Bool) :
    (s.setRing ring woke).feeds.map Feed.start = s.feeds.map Feed.start := by
  rw [feeds_setRing, List.map_map]
  congr 1
  funext f
  simp only [Function.comp]
  split
  · exact (Feed.same_wake f).start
  · rfl

theorem opened_dismiss (s : Session σ) (old : Nat) : (s.dismiss old).feeds.map Feed.start = s.feeds.map Feed.start := by
  refine List.ext_getElem? fun k => ?_
  rw [List.getElem?_map, List.getElem?_map, feeds_dismiss, List.getElem?_modify]
  split
  · cases s.feeds[k]? <;> rfl
  · cases s.feeds[k]? <;> rfl

theorem Reringed.opened {woke : Bool} (ht : Reringed s t woke) : t.feeds.map Feed.start = s.feeds.map Feed.start := by
  refine List.ext_getElem? fun k => ?_
  rw [List.getElem?_map, List.getElem?_map]
  cases hs : s.feeds[k]? with
  | some f =>
    obtain ⟨g, hg, hsame⟩ := ht.onward k f hs
    rw [hg, Option.map_some, Option.map_some, hsame.start]
  | none =>
    cases hg : t.feeds[k]? with
    | none => rfl
    | some g =>
      obtain ⟨f, hf, -⟩ := ht.back k g hg
      rw [hs] at hf
      cases hf

/-- A move of the ring and the feeds that leaves the read cursor where it is, does not show. -/
theorem Reringed.reference {woke : Bool} (ht : Reringed s t woke) (hstart : t.ring.start = s.ring.start) :
    t.reference = s.reference := by
  have hwindow := window_congr ht.closed ht.slot hstart (any_old?_told ht.tasks)
  simp only [Session.reference, hwindow, ht.opened, asks_told ht.tasks, ht.closed]

/-- A task that is told of nothing but its own end shows as that. -/
theorem reference_endTask {r : Reading} {phase : Reading.Phase} (hi : s.tasks[i]? = some (.read r))
    (hold : s.closed = true ∨ ((Task.read r).old? = none ∧ (Task.read { r with phase }).old? = none)) :
    (s.endTask i (.read { r with phase })).reference =
      s.reference.become i ⟨r.len, r.position, r.phase.stage⟩ phase.stage := by
  have hwindow : (s.endTask i (.read { r with phase })).window = s.window := by
    rcases hold with hclosed | ⟨hold, hnew⟩
    · rw [window_of_closed hclosed, window_of_closed (by simpa using hclosed)]
    · exact window_congr rfl rfl rfl (any_set hi (by rw [hold, hnew]))
  simp only [reference, Reference.become, hwindow, tasks_endTask, asks_set, feeds_endTask, closed_endTask]

/-- A read that gives the old feed its notice has not begun yet. -/
theorem reference_dismiss {old : Nat} {r : Reading} (hi : s.tasks[i]? = some (.read r)) (hp : r.phase = .queued)
    (hopen : s.closed = false) (hslot : s.slot = some old) :
    ((s.dismiss old).setTask i (.read { r with phase := .replacing old })).reference = s.reference := by
  have hlt : i < s.tasks.length := (List.getElem?_eq_some_iff.mp hi).1
  have hany : (s.tasks.set i (.read { r with phase := .replacing old })).any (·.old?.isSome) = true :=
    List.any_eq_true.mpr ⟨_, List.mem_of_getElem? (List.getElem?_set_self hlt), rfl⟩
  refine Reference.ext ?_ ?_ ?_ rfl
  · show Session.window _ = s.window
    rw [window_of_slot hopen (by rw [hslot]; rfl)]
    simp [window, hopen, hany]
  · exact opened_dismiss s old
  · show (s.tasks.set i _).map Task.ask? = s.tasks.map Task.ask?
    rw [asks_set]
    refine set_of_getElem? ?_
    have hask := getElem?_asks hi
    rwa [hp] at hask

end Session

end ReadAhead
