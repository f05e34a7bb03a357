import ReadAhead.Feed
import ReadAhead.Stream
import ReadAhead.Total
import ReadAhead.Word

/-! A stream at work. Its reads take turns: the one whose turn it is either finds its bytes in the ring,
    or waits for the feed to bring them, or, when the feed cannot serve it, replaces the feed by one that
    starts a little before the wanted position. Replacing waits until the old feed has stopped. Closing
    wakes whoever waits, and then takes its turn to stop the last feed.

    Reads, closings and feeds are tasks. A task runs without interruption from one point where it waits to
    the next; each such stretch is one step here. `turn` and `feedStep` are the steps of the tasks,
    `expire` is what happens when nobody holds the stream any more, and `start`, `startClose`, `abandon`
    and `letGo` are what the owner of the stream does. -/

namespace ReadAhead

/-- The bytes that a read delivers, and whether they reach the end of the file. -/
structure Delivery where
  bytes : ByteArray
  eof : Bool
  deriving DecidableEq

/-- Where a read is between two of its steps. -/
inductive Reading.Phase
  | queued
  /-- Waits for the feed it replaces to stop. -/
  | replacing (old : Nat)
  /-- Waits for the bytes up to the position `last`. -/
  | waiting (last : Nat) (woken : Bool)
  | done (result : Except Failure Delivery)
  /-- Given up by its owner. -/
  | abandoned

/-- A read of `len` bytes at `position`. -/
structure Reading where
  len : Nat
  position : Nat
  /-- How long it may wait. -/
  wait : Duration
  /-- When it has waited so long. -/
  deadline : Nat
  phase : Reading.Phase

/-- Where a closing is between two of its steps. -/
inductive Closing
  | queued
  /-- Waits for the last feed to stop. -/
  | draining (old : Nat)
  | done
  deriving DecidableEq

/-- What runs on a stream for its owner. -/
inductive Task
  | read (r : Reading)
  | close (c : Closing)

/-- What the stream was last used for. -/
inductive Mark
  /-- No feed serves the stream. -/
  | idle
  /-- A read waits for a feed, or waited in vain. -/
  | filling
  /-- The last read was served. -/
  | ready
  deriving DecidableEq

/-- How a stream shows itself. -/
inductive Lifecycle
  | idle
  | filling
  | ready
  | closed
  deriving DecidableEq

namespace Lifecycle

def name : Lifecycle → String
  | idle => "Idle"
  | filling => "Filling"
  | ready => "Ready"
  | closed => "Closed"

end Lifecycle

/-- A stream at work, and the time. -/
structure Session (σ : Type) where
  stream : Stream
  now : Nat
  /-- How many times a connection has been attempted. -/
  attempts : Nat
  ring : Ring
  /-- Every feed so far, in the order they were started. -/
  feeds : List (Feed σ)
  /-- The feed that serves the stream. -/
  slot : Option Nat
  mark : Mark
  closed : Bool
  /-- Whether the owner still holds the stream. -/
  held : Bool
  /-- Every read and closing so far, in the order they were started. -/
  tasks : List Task
  /-- The tasks that wait for their turn; the first of them has it. -/
  turns : List Nat

namespace Task

def isOver : Task → Bool
  | .read r => match r.phase with
    | .done _ | .abandoned => true
    | _ => false
  | .close .done => true
  | .close _ => false

/-- Tells a task that the ring changed. -/
def wake : Task → Task
  | .read r => match r.phase with
    | .waiting last _ => .read { r with phase := .waiting last true }
    | _ => .read r
  | .close c => .close c

end Task

namespace Session
variable {σ : Type}

/-- A stream with nothing done yet, at time `now`, over a given storage. -/
def onStorage (stream : Stream) (storage : ByteArray) (now : Nat) : Session σ where
  stream := stream
  now := now
  attempts := 0
  ring := Ring.onStorage storage 0
  feeds := []
  slot := none
  mark := .idle
  closed := false
  held := true
  tasks := []
  turns := []

def fresh (stream : Stream) (now : Nat) : Session σ := onStorage stream (Bytes.zeros stream.tier.capacity) now

/-- The state that the stream shows. -/
def lifecycle (s : Session σ) : Lifecycle :=
  if s.closed then .closed
  else match s.mark with
    | .idle => .idle
    | .filling => .filling
    | .ready => .ready

/-- The feed that serves the stream. -/
def current? (s : Session σ) : Option (Feed σ) := s.slot.bind (s.feeds[·]?)

/-- How many sources have been closed, each counted as often as it was. -/
def sourceCloses (s : Session σ) : Nat := total (s.feeds.map Feed.closes)

/-! ### Parts of a step -/

/-- The ring becomes `ring`; if it `woke`, every task and feed that waits on it is told. -/
def setRing (ring : Ring) (woke : Bool) (s : Session σ) : Session σ :=
  if woke then { s with ring, feeds := s.feeds.map Feed.wake, tasks := s.tasks.map Task.wake }
  else { s with ring }

/-- Notes what the stream is used for; a closed stream takes no such note. -/
def note (mark : Mark) (s : Session σ) : Session σ := if s.closed then s else { s with mark }

def setTask (i : Nat) (task : Task) (s : Session σ) : Session σ := { s with tasks := s.tasks.set i task }

/-- Task `i` becomes `task`, which is over, and the next one has its turn. -/
def endTask (i : Nat) (task : Task) (s : Session σ) : Session σ :=
  { s with tasks := s.tasks.set i task, turns := s.turns.erase i }

def finish (i : Nat) (r : Reading) (result : Except Failure Delivery) (s : Session σ) : Session σ :=
  s.endTask i (.read { r with phase := .done result })

def setFeed (k : Nat) (feed : Feed σ) (s : Session σ) : Session σ := { s with feeds := s.feeds.set k feed }

/-- Feed `old` no longer serves the stream, and is asked to stop. -/
def dismiss (old : Nat) (s : Session σ) : Session σ :=
  { s with feeds := s.feeds.modify old Feed.cancel, slot := none }

/-- A feed from a source at `start` serves the stream from now on. -/
def install (source : σ) (start : Nat) (s : Session σ) : Session σ :=
  { s with
    feeds := s.feeds ++ [Feed.fresh source start s.stream.scratch]
    slot := some s.feeds.length }

def countAttempt (s : Session σ) : Session σ := { s with attempts := s.attempts + 1 }

def cancelAll (s : Session σ) : Session σ := { s with feeds := s.feeds.map Feed.cancel }

def hasStopped (s : Session σ) (k : Nat) : Bool :=
  match s.feeds[k]? with
  | some f => f.isStopped
  | none => true

/-- How a refusal of the ring shows: once the stream is closed, as that. -/
def ringFailure (s : Session σ) (cause : RingError) : Failure := if s.closed then .closed else .ring cause

/-- Where a read would end if the ring could hold all of it. -/
def wantedEnd (s : Session σ) (r : Reading) : Nat := min (r.position + r.len) s.stream.size

/-- Where a ring full from the read cursor on would end. -/
def reach (s : Session σ) : Nat := s.ring.start + s.ring.capacity

/-- Whether the feed at work cannot serve a read: there is none, the position lies outside what the ring
    can come to hold, or the feed stopped short of what the ring could hold of the read. -/
def isStale (s : Session σ) (r : Reading) : Bool :=
  s.slot.isNone || decide (r.position < s.ring.start) || decide (s.reach ≤ r.position) ||
    match s.ring.stop with
    | some stop => decide (stop < min (s.wantedEnd r) s.reach)
    | none => false

/-- The last position that a read waits for. -/
def lastWanted (s : Session σ) (r : Reading) : Nat := max (min (s.wantedEnd r) s.reach - 1) r.position

/-! ### Steps of a read -/

/-- Takes the bytes of read `i` out of the ring. -/
def serve (i : Nat) (r : Reading) (s : Session σ) : Session σ :=
  let taken := s.ring.readAt r.len r.position
  let s := s.setRing taken.ring taken.woke
  match taken.answer with
  | .error cause => s.finish i r (.error (s.ringFailure cause))
  | .ok bytes =>
    (s.note .ready).finish i r (.ok ⟨bytes, decide (s.stream.size ≤ r.position + bytes.size)⟩)

/-- Read `i` fails because the feed stopped at `stop`: with the failure of the feed, if that will not pass
    by itself, and else because the feed ended. -/
def fallShort (i : Nat) (r : Reading) (stop : Nat) (s : Session σ) : Session σ :=
  let failure := match s.current?.bind Feed.failure with
    | some f => if f.isTransient then .ended stop else f
    | none => .ended stop
  s.finish i r (.error failure)

/-- Looks whether the bytes up to `last` are there for read `i`, and lets it wait on if they may come. -/
def look (i : Nat) (r : Reading) (last : Nat) (s : Session σ) : Session σ :=
  if s.closed then s.finish i r (.error .closed)
  else match s.ring.availability last with
    | .error cause => s.finish i r (.error (s.ringFailure cause))
    | .ok .resident => s.serve i r
    | .ok (.ended stop) =>
      if r.position < stop ∧ s.ring.isResident r.position then s.serve i r else s.fallShort i r stop
    | .ok .pending =>
      let s := s.note .filling
      if r.deadline ≤ s.now then s.finish i r (.error (.timeout r.position (clampWord r.wait.millis)))
      else s.setTask i (.read { r with phase := .waiting last false })

/-- Connects a feed at `start`, the ring being empty and bound there, and looks for read `i`. -/
def connect (origin : Origin σ) (i : Nat) (r : Reading) (start : Nat) (s : Session σ) : Session σ :=
  match origin.connect s.stream.url s.attempts start with
  | .error failure => (s.countAttempt.note .idle).finish i r (.error failure)
  | .ok source =>
    let s := (s.countAttempt.install source start).note .filling
    s.look i r (s.lastWanted r)

/-- Empties the ring, starts a feed a little before the position of read `i`, and looks. -/
def restart (origin : Origin σ) (i : Nat) (r : Reading) (s : Session σ) : Session σ :=
  let start := r.position - s.stream.tier.margin
  let emptied := s.ring.reset start
  let s := s.setRing emptied.ring emptied.woke
  match emptied.answer with
  | .error cause => s.finish i r (.error (s.ringFailure cause))
  | .ok () => s.connect origin i r start

/-- The next step of read `i`, whose turn it is. -/
def readStep (origin : Origin σ) (i : Nat) (r : Reading) (s : Session σ) : Session σ :=
  match r.phase with
  | .queued =>
    if s.closed then s.finish i r (.error .closed)
    else if s.isStale r then
      match s.slot with
      | some old => (s.dismiss old).setTask i (.read { r with phase := .replacing old })
      | none => s.restart origin i r
    else s.look i r (s.lastWanted r)
  | .replacing old => if s.hasStopped old then s.restart origin i r else s
  | .waiting last woken =>
    if woken then s.look i r last
    else if r.deadline ≤ s.now then
      if s.closed then s.finish i r (.error .closed)
      else s.finish i r (.error (.timeout r.position (clampWord r.wait.millis)))
    else s
  | .done _ | .abandoned => s

/-- The next step of closing `i`, whose turn it is. -/
def closeStep (i : Nat) (c : Closing) (s : Session σ) : Session σ :=
  match c with
  | .queued =>
    match s.slot with
    | some old => (s.dismiss old).setTask i (.close (.draining old))
    | none => s.endTask i (.close .done)
  | .draining old => if s.hasStopped old then s.endTask i (.close .done) else s
  | .done => s

/-! ### Steps of the tasks -/

/-- The next step of task `i`, whose turn it is. -/
def turn (origin : Origin σ) (i : Nat) (s : Session σ) : Session σ :=
  match s.tasks[i]? with
  | some (.read r) => s.readStep origin i r
  | some (.close c) => s.closeStep i c
  | none => s

/-- The next step of feed `k`. -/
def feedStep (origin : Origin σ) (k : Nat) (s : Session σ) : Session σ :=
  match s.feeds[k]? with
  | none => s
  | some f =>
    let now := s.now
    let ring := s.ring
    -- The feed has the ring to itself, so that it is written in place.
    let s := { s with ring := .vacant }
    let after := f.advance origin now ring
    (s.setRing after.ring after.woke).setFeed k after.feed

theorem feedStep_eq {origin : Origin σ} {k : Nat} {s : Session σ} {f : Feed σ} (h : s.feeds[k]? = some f) :
    s.feedStep origin k =
      (s.setRing (f.advance origin s.now s.ring).ring (f.advance origin s.now s.ring).woke).setFeed k
        (f.advance origin s.now s.ring).feed := by
  rw [feedStep, h]
  rfl

/-- Whether task `i`, whose turn it is, can take a step. -/
def taskReady (s : Session σ) (i : Nat) : Bool :=
  match s.tasks[i]? with
  | some (.read r) => match r.phase with
    | .queued => true
    | .replacing old => s.hasStopped old
    | .waiting _ woken => woken || decide (r.deadline ≤ s.now)
    | .done _ | .abandoned => false
  | some (.close c) => match c with
    | .queued => true
    | .draining old => s.hasStopped old
    | .done => false
  | none => false

def feedReady (s : Session σ) (k : Nat) : Bool :=
  match s.feeds[k]? with
  | some f => f.isReady s.now
  | none => false

/-- Whether nobody holds the stream any more, neither its owner nor a task, and it still has its ring. -/
def isForsaken (s : Session σ) : Bool := !s.held && s.tasks.all Task.isOver && !s.ring.isClosed

/-- Gives up the ring and stops the feeds of a stream that nobody holds. -/
def expire (s : Session σ) : Session σ :=
  let shut := s.ring.close
  (s.setRing shut.ring shut.woke).cancelAll

/-! ### What the owner does -/

/-- Starts a read of `len` bytes at `position`. Its deadline is a number without bound, where a clock tells no moment from
    `Duration.clockEnd` on: a read that is to stand in line would break off, as a call of a catalog does, if its wait
    lasted until then. That takes a timeout and a longest wait which are both of that length, and is left out. -/
def start (len position : Nat) (timeout : Option Duration) (s : Session σ) : Session σ :=
  let wait := s.stream.waitFor timeout
  let r : Reading := ⟨len, position, wait, s.now + wait.millisUp, .queued⟩
  let ended (result : Except Failure Delivery) : Session σ :=
    { s with tasks := s.tasks ++ [.read { r with phase := .done result }] }
  if s.closed then ended (.error .closed)
  else if s.stream.size ≤ position then ended (.ok ⟨ByteArray.empty, true⟩)
  else if len = 0 then ended (.ok ⟨ByteArray.empty, false⟩)
  else { s with tasks := s.tasks ++ [.read r], turns := s.turns ++ [s.tasks.length] }

/-- Starts to close the stream. Only the first closing does anything. -/
def startClose (s : Session σ) : Session σ :=
  if s.closed then { s with tasks := s.tasks ++ [.close .done] }
  else
    let shut := s.ring.close
    let s := (s.setRing shut.ring shut.woke).cancelAll
    { s with closed := true, tasks := s.tasks ++ [.close .queued], turns := s.turns ++ [s.tasks.length] }

/-- Gives up read `i` if it is not over, and says whether it was given up. -/
def abandon (i : Nat) (s : Session σ) : Bool × Session σ :=
  match s.tasks[i]? with
  | some (.read r) =>
    if (Task.read r).isOver then (false, s)
    else (true, s.endTask i (.read { r with phase := .abandoned }))
  | _ => (false, s)

def letGo (s : Session σ) : Session σ := { s with held := false }

end Session
end ReadAhead
