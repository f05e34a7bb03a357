import ReadAhead.Proofs.Ring.Sound
import ReadAhead.Session.Frame
import ReadAhead.Session.Tick

/-! What a turn of a read can do, said once. A read that looks is served, falls short, waits, or fails
    (`Looked`); one that replaces the feed first empties the ring and connects (`Restarted`); and a turn is
    one of these or gives the old feed its notice (`ReadTurn`). Everything that is proved about turns goes
    by cases on these relations. -/

namespace ReadAhead
namespace Session
variable {σ : Type} {origin : Origin σ} {s : Session σ} {i last : Nat} {r : Reading}

@[simp] theorem finish_eq (s : Session σ) (i : Nat) (r : Reading) (result : Except Failure Delivery) :
    s.finish i r result = s.endTask i (.read { r with phase := .done result }) := rfl

/-- The session with the ring emptied and bound at `start`, and one more attempt to connect. -/
def rebound (s : Session σ) (start : Nat) : Session σ := (s.setRing (s.ring.emptied start) true).countAttempt

/-- The session with a feed from `source` just started on the emptied ring. -/
def joined (s : Session σ) (source : σ) (start : Nat) : Session σ := ((s.rebound start).install source start).note .filling

section Rebound
variable (s : Session σ) (source : σ) (start : Nat)

@[simp] theorem stream_rebound : (s.rebound start).stream = s.stream := stream_setRing ..
@[simp] theorem slot_rebound : (s.rebound start).slot = s.slot := slot_setRing ..
@[simp] theorem closed_rebound : (s.rebound start).closed = s.closed := closed_setRing ..
@[simp] theorem turns_rebound : (s.rebound start).turns = s.turns := turns_setRing ..
@[simp] theorem ring_rebound : (s.rebound start).ring = s.ring.emptied start := ring_setRing ..
@[simp] theorem attempts_rebound : (s.rebound start).attempts = s.attempts + 1 := congrArg (· + 1) (attempts_setRing ..)
@[simp] theorem tasks_rebound : (s.rebound start).tasks = s.tasks.map Task.wake := tasks_setRing ..
@[simp] theorem feeds_rebound : (s.rebound start).feeds = s.feeds.map Feed.wake := feeds_setRing ..

@[simp] theorem stream_joined : (s.joined source start).stream = s.stream := by simp [joined]
@[simp] theorem slot_joined : (s.joined source start).slot = some s.feeds.length := by simp [joined]
@[simp] theorem closed_joined : (s.joined source start).closed = s.closed := by simp [joined]
@[simp] theorem turns_joined : (s.joined source start).turns = s.turns := by simp [joined]
@[simp] theorem attempts_joined : (s.joined source start).attempts = s.attempts + 1 := by simp [joined, rebound]
@[simp] theorem ring_joined : (s.joined source start).ring = s.ring.emptied start := by simp [joined]
@[simp] theorem tasks_joined : (s.joined source start).tasks = s.tasks.map Task.wake := by simp [joined]
@[simp] theorem feeds_joined : (s.joined source start).feeds =
    s.feeds.map Feed.wake ++ [Feed.fresh source start s.stream.scratch] := by simp [joined]

end Rebound

/-- Where a feed starts that is to serve a read. -/
def restartAt (s : Session σ) (r : Reading) : Nat := r.position - s.stream.tier.margin

def lateness (r : Reading) : Failure := .timeout r.position (clampWord r.wait.millis)

/-- What looking for the bytes up to `last` can come to for read `i`. -/
inductive Looked (s : Session σ) (i : Nat) (r : Reading) (last : Nat) : Session σ → Prop
  | closed (hc : s.closed = true) : Looked s i r last (s.finish i r (.error .closed))
  | shut (hc : s.closed = false) (hshut : s.ring.isClosed = true) :
    Looked s i r last (s.finish i r (.error (.ring .closed)))
  | served (hc : s.closed = false) (hres : s.ring.isResident r.position = true)
    (henough : s.ring.isResident last = true ∨ ∃ stop, s.ring.stop = some stop ∧ stop ≤ last ∧ r.position < stop)
    {bytes : ByteArray} {left : Ring} (ht : s.ring.Taken r.len r.position bytes left) :
    Looked s i r last (((s.setRing left true).note .ready).finish i r
      (.ok ⟨bytes, decide (s.stream.size ≤ r.position + bytes.size)⟩))
  | short {stop : Nat} (hc : s.closed = false) (hopen : s.ring.isClosed = false) (hstop : s.ring.stop = some stop)
    (hle : stop ≤ last) (hlast : s.ring.isResident last = false)
    (hmiss : stop ≤ r.position ∨ s.ring.isResident r.position = false) : Looked s i r last (s.fallShort i r stop)
  | late (hc : s.closed = false) (hpending : s.ring.availability last = .ok .pending) (hd : r.deadline ≤ s.now) :
    Looked s i r last ((s.note .filling).finish i r (.error (lateness r)))
  | waits (hc : s.closed = false) (hpending : s.ring.availability last = .ok .pending) (hd : s.now < r.deadline) :
    Looked s i r last ((s.note .filling).setTask i (.read { r with phase := .waiting last false }))

theorem looked_serve (hring : s.ring.Sound) (hc : s.closed = false) (hres : s.ring.isResident r.position = true)
    (henough : s.ring.isResident last = true ∨ ∃ stop, s.ring.stop = some stop ∧ stop ≤ last ∧ r.position < stop) :
    Looked s i r last (s.serve i r) := by
  obtain ⟨bytes, left, hread, ht⟩ := Ring.readAt_of_resident hring hres r.len
  unfold serve
  rw [hread]
  simp only [stream_setRing]
  exact .served hc hres henough ht

/-- A read whose bytes are pending is late or waits. -/
theorem looked_of_pending (hc : s.closed = false) (hpending : s.ring.availability last = .ok .pending) :
    Looked s i r last (if r.deadline ≤ s.now then (s.note .filling).finish i r (.error (lateness r))
      else (s.note .filling).setTask i (.read { r with phase := .waiting last false })) := by
  split
  · exact .late hc hpending ‹_›
  · exact .waits hc hpending (by omega)

theorem looked_look (hring : s.ring.Sound) (hlow : s.ring.start ≤ r.position) (hlast : r.position ≤ last) :
    Looked s i r last (s.look i r last) := by
  unfold look
  by_cases hc : s.closed = true
  · rw [if_pos hc]
    exact .closed hc
  rw [if_neg hc]
  have hc : s.closed = false := by simpa using hc
  cases hopen : s.ring.isClosed with
  | true =>
    have havail : s.ring.availability last = .error .closed := by simp [Ring.availability, hopen]
    rw [havail]
    simp only [ringFailure, hc]
    exact .shut hc hopen
  | false =>
    have havail : s.ring.availability last = _ := Ring.availability_of_open hopen
    cases hres : s.ring.isResident last with
    | true =>
      obtain ⟨-, -, hhigh⟩ := (Ring.isResident_iff hring).mp hres
      rw [hres, if_pos rfl] at havail
      rw [havail]
      exact looked_serve hring hc ((Ring.isResident_iff hring).mpr ⟨hopen, hlow, by omega⟩) (Or.inl hres)
    | false =>
      rw [hres, if_neg (by simp)] at havail
      cases hstop : s.ring.stop with
      | none =>
        rw [hstop] at havail
        rw [havail]
        simp only [now_note]
        exact looked_of_pending hc havail
      | some stop =>
        rw [hstop] at havail
        by_cases hle : stop ≤ last
        · simp only [if_pos hle] at havail
          rw [havail]
          simp only
          split
          · rename_i h
            exact looked_serve hring hc h.2 (Or.inr ⟨stop, hstop, hle, h.1⟩)
          -- Nothing of the read is there, either since the feed stopped before it or since it is taken already.
          · rename_i h
            refine .short hc hopen hstop hle hres ?_
            by_cases hp : r.position < stop
            · exact Or.inr (by simpa [hp] using h)
            · exact Or.inl (by omega)
        · simp only [if_neg hle] at havail
          rw [havail]
          simp only [now_note]
          exact looked_of_pending hc havail

/-- The sessions differ at most in their tasks, in what was noted and in who holds them. -/
structure Steady (s t : Session σ) : Prop where
  stream : t.stream = s.stream
  now : t.now = s.now
  attempts : t.attempts = s.attempts
  ring : t.ring = s.ring
  feeds : t.feeds = s.feeds
  slot : t.slot = s.slot
  closed : t.closed = s.closed

theorem Steady.trans {t u : Session σ} (h : Steady s t) (h' : Steady t u) : Steady s u :=
  ⟨h'.stream.trans h.stream, h'.now.trans h.now, h'.attempts.trans h.attempts, h'.ring.trans h.ring,
    h'.feeds.trans h.feeds, h'.slot.trans h.slot, h'.closed.trans h.closed⟩

theorem steady_note (s : Session σ) (mark : Mark) : Steady s (s.note mark) := by constructor <;> simp

theorem steady_setTask (s : Session σ) (i : Nat) (task : Task) : Steady s (s.setTask i task) :=
  ⟨rfl, rfl, rfl, rfl, rfl, rfl, rfl⟩

theorem steady_endTask (s : Session σ) (i : Nat) (task : Task) : Steady s (s.endTask i task) :=
  ⟨rfl, rfl, rfl, rfl, rfl, rfl, rfl⟩

/-- Looking changes nothing but tasks, or takes bytes out of the ring. -/
theorem Looked.steady_or_takes {t : Session σ} (hl : Looked s i r last t) : Steady s t ∨
    ∃ bytes left, s.ring.isResident r.position = true ∧ s.ring.Taken r.len r.position bytes left ∧
      Steady (s.setRing left true) t := by
  cases hl with
  | closed => exact Or.inl (steady_endTask ..)
  | shut => exact Or.inl (steady_endTask ..)
  | @served _ hres _ bytes left ht =>
    exact Or.inr ⟨bytes, left, hres, ht, (steady_note _ .ready).trans (steady_endTask ..)⟩
  | short => exact Or.inl (steady_endTask ..)
  | late => exact Or.inl ((steady_note s .filling).trans (steady_endTask ..))
  | waits => exact Or.inl ((steady_note s .filling).trans (steady_setTask ..))

theorem Looked.slot {t : Session σ} (hl : Looked s i r last t) : t.slot = s.slot := by
  rcases hl.steady_or_takes with ht | ⟨bytes, left, -, -, ht⟩
  · exact ht.slot
  · rw [ht.slot, slot_setRing]

/-- What replacing the feed can come to for read `i`, once the old one has stopped. -/
inductive Restarted (origin : Origin σ) (s : Session σ) (i : Nat) (r : Reading) : Session σ → Prop
  | shut (hshut : s.ring.isClosed = true) : Restarted origin s i r (s.finish i r (.error (s.ringFailure .closed)))
  | refused {cause : Failure} (hopen : s.ring.isClosed = false)
    (hconn : origin.connect s.stream.url s.attempts (s.restartAt r) = .error cause) :
    Restarted origin s i r (((s.rebound (s.restartAt r)).note .idle).finish i r (.error cause))
  | connected {source : σ} {t : Session σ} (hopen : s.ring.isClosed = false)
    (hconn : origin.connect s.stream.url s.attempts (s.restartAt r) = .ok source)
    (hlook : Looked (s.joined source (s.restartAt r)) i r ((s.joined source (s.restartAt r)).lastWanted r) t) :
    Restarted origin s i r t

theorem le_lastWanted (s : Session σ) (r : Reading) : r.position ≤ s.lastWanted r := Nat.le_max_right _ _

theorem restarted_restart (hring : s.ring.Sound) : Restarted origin s i r (s.restart origin i r) := by
  unfold restart
  simp only
  cases hopen : s.ring.isClosed with
  | true =>
    rw [Ring.reset_of_closed hopen]
    simp only [setRing, Bool.false_eq_true, if_false]
    exact .shut hopen
  | false =>
    rw [Ring.reset_of_open hopen]
    simp only [connect, stream_setRing, attempts_setRing]
    cases hconn : origin.connect s.stream.url s.attempts (s.restartAt r) with
    | error cause =>
      rw [restartAt] at hconn
      rw [hconn]
      exact .refused hopen hconn
    | ok source =>
      have hsound : (s.joined source (s.restartAt r)).ring.Sound := by
        simpa using Ring.sound_emptied hring (s.restartAt r)
      have hlook := looked_look (i := i) hsound (r := r) (by simp [restartAt])
        (le_lastWanted (s.joined source (s.restartAt r)) r)
      have hconn' := hconn
      rw [restartAt] at hconn'
      rw [hconn']
      exact .connected hopen hconn hlook

/-- What a turn of read `i` can do. -/
inductive ReadTurn (origin : Origin σ) (s : Session σ) (i : Nat) (r : Reading) : Session σ → Prop
  | closed (hp : r.phase = .queued) (hc : s.closed = true) : ReadTurn origin s i r (s.finish i r (.error .closed))
  | dismiss {old : Nat} (hp : r.phase = .queued) (hc : s.closed = false) (hstale : s.isStale r = true)
    (hslot : s.slot = some old) :
    ReadTurn origin s i r ((s.dismiss old).setTask i (.read { r with phase := .replacing old }))
  | restart {t : Session σ}
    (hold : (r.phase = .queued ∧ s.closed = false ∧ s.slot = none) ∨
      ∃ old, r.phase = .replacing old ∧ s.hasStopped old = true)
    (h : Restarted origin s i r t) : ReadTurn origin s i r t
  | look {last : Nat} {t : Session σ}
    (hlast : (r.phase = .queued ∧ s.closed = false ∧ s.isStale r = false ∧ last = s.lastWanted r) ∨
      r.phase = .waiting last true)
    (h : Looked s i r last t) : ReadTurn origin s i r t
  | late {last : Nat} (hp : r.phase = .waiting last false) (hd : r.deadline ≤ s.now) :
    ReadTurn origin s i r (s.finish i r (.error (if s.closed then .closed else lateness r)))

theorem start_le_of_not_stale (h : s.isStale r = false) : s.ring.start ≤ r.position := by
  simp only [isStale, Bool.or_eq_false_iff, decide_eq_false_iff_not] at h
  omega

/-- The turn of a read that can take one. A waiting read waits for bytes that are still ahead of the read
    cursor. -/
theorem readTurn_readStep (hring : s.ring.Sound) (hi : s.tasks[i]? = some (.read r)) (hready : s.taskReady i = true)
    (hwaits : ∀ last woken, r.phase = .waiting last woken → s.ring.start ≤ r.position ∧ r.position ≤ last) :
    ReadTurn origin s i r (s.readStep origin i r) := by
  unfold taskReady at hready
  rw [hi] at hready
  unfold readStep
  split
  · rename_i hp
    by_cases hc : s.closed = true
    · rw [if_pos hc]
      exact .closed hp hc
    rw [if_neg hc]
    have hc : s.closed = false := by simpa using hc
    cases hstale : s.isStale r with
    | true =>
      rw [if_pos rfl]
      cases hslot : s.slot with
      | some old => exact .dismiss hp hc hstale hslot
      | none => exact .restart (Or.inl ⟨hp, hc, hslot⟩) (restarted_restart hring)
    | false =>
      rw [if_neg (by simp)]
      exact .look (Or.inl ⟨hp, hc, hstale, rfl⟩)
        (looked_look hring (start_le_of_not_stale hstale) (le_lastWanted s r))
  · rename_i old hp
    simp only [hp] at hready
    rw [if_pos hready]
    exact .restart (Or.inr ⟨old, hp, hready⟩) (restarted_restart hring)
  · rename_i last woken hp
    obtain ⟨hlow, hhigh⟩ := hwaits last woken hp
    cases woken with
    | true => exact .look (Or.inr hp) (looked_look hring hlow hhigh)
    | false =>
      simp only [hp, Bool.false_or, decide_eq_true_eq] at hready
      have hlate : ReadTurn origin s i r _ := .late hp hready
      simp only [Bool.false_eq_true, if_false, if_pos hready]
      split
      · rename_i hc
        rwa [if_pos hc] at hlate
      · rename_i hc
        rwa [if_neg hc] at hlate
  · rename_i hp
    simp [hp] at hready
  · rename_i hp
    simp [hp] at hready

end Session
end ReadAhead
