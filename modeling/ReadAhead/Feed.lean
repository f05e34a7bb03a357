import ReadAhead.Ring
import ReadAhead.Source

/-! A feed: the task that keeps a ring filled from one source. It asks the source for a chunk, puts the
    chunk into the ring as room comes free, and asks again. It stops at the end of the data, at the first
    failure, when it is cancelled, or when the ring is closed; then it marks the ring finished and closes
    the source, once. A feed never starts again. -/

namespace ReadAhead

/-- Where a feed is between two of its steps. -/
inductive Feed.Phase
  | asking
  /-- The source has been asked, and answers at `due`. -/
  | awaiting (due : Nat) (answer : Except Failure ByteArray)
  /-- The ring is full and `rest` is still to be put there. -/
  | blocked (rest : ByteArray) (left : 0 < rest.size) (woken : Bool)
  /-- The ring is finished and the source closed. -/
  | stopped

/-- A task that fills a ring from a source. -/
structure Feed (σ : Type) where
  source : σ
  /-- The offset that the source started at. -/
  start : Nat
  /-- Bytes asked for at once, if the ring can hold so many. -/
  scratch : Nat
  phase : Feed.Phase
  /-- Bytes put into the ring so far. -/
  copied : Nat
  /-- What the feed stopped on, unless it was the end of the data or a shutdown. -/
  failure : Option Failure
  /-- How many times the source has been closed. -/
  closes : Nat
  cancelled : Bool

namespace Feed
variable {σ : Type}

/-- What a step of a feed leaves: the ring, whether those who wait on it are woken, and the feed. -/
structure After (σ : Type) where
  ring : Ring
  woke : Bool
  feed : Feed σ

def fresh (source : σ) (start scratch : Nat) : Feed σ where
  source := source
  start := start
  scratch := scratch
  phase := .asking
  copied := 0
  failure := none
  closes := 0
  cancelled := false

def isStopped (f : Feed σ) : Bool :=
  match f.phase with
  | .stopped => true
  | _ => false

def cancel (f : Feed σ) : Feed σ := { f with cancelled := true }

/-- Tells the feed that the ring changed. -/
def wake (f : Feed σ) : Feed σ :=
  match f.phase with
  | .blocked rest left _ => { f with phase := .blocked rest left true }
  | _ => f

/-- When the answer that the feed waits for is there. -/
def due? (f : Feed σ) : Option Nat :=
  match f.phase with
  | .awaiting due _ => some due
  | _ => none

/-- Whether the feed can take a step at time `now`. -/
def isReady (f : Feed σ) (now : Nat) : Bool :=
  match f.phase with
  | .asking => true
  | .awaiting due _ => f.cancelled || decide (due ≤ now)
  | .blocked _ _ woken => f.cancelled || woken
  | .stopped => false

/-! ### Steps -/

/-- Stops: the ring is finished, the source closed, and a failure kept that is not a shutdown. -/
def halt (f : Feed σ) (ring : Ring) (woke : Bool) (cause : Option Failure) : After σ :=
  let r := ring.finish
  { ring := r.ring
    woke := woke || r.woke
    feed := { f with phase := .stopped, failure := cause.filter (!·.isShutdown), closes := f.closes + 1 } }

/-- Where a feed is that has put `n` bytes of `rest` into the ring. -/
def afterPut (rest : ByteArray) (n : Nat) : Feed.Phase :=
  if h : n < rest.size then .blocked (rest.extract n rest.size) (by rw [ByteArray.size_extract]; omega) false
  else .asking

/-- Puts as much of a chunk into the ring as there is room for, and waits with the rest. -/
def pour (f : Feed σ) (ring : Ring) (rest : ByteArray) (left : 0 < rest.size) : After σ :=
  if ring.isClosed then f.halt ring false (some (.ring .closed))
  else if ring.free = 0 then ⟨ring, false, { f with phase := .blocked rest left false }⟩
  else
    let n := min ring.free rest.size
    let r := ring.append (rest.extract 0 n)
    match r.answer with
    | .error cause => f.halt r.ring r.woke (some (.ring cause))
    | .ok _ => ⟨r.ring, r.woke, { f with phase := afterPut rest n, copied := f.copied + n }⟩

/-- Takes what the source answered. An answer without bytes is the end of the data. -/
def take (f : Feed σ) (ring : Ring) (answer : Except Failure ByteArray) : After σ :=
  match answer with
  | .error cause => f.halt ring false (some cause)
  | .ok chunk => if h : 0 < chunk.size then f.pour ring chunk h else f.halt ring false none

def ask (f : Feed σ) (origin : Origin σ) (now : Nat) (ring : Ring) : After σ :=
  let reply := origin.read f.source (min f.scratch ring.capacity)
  let f := { f with source := reply.next }
  if reply.delay = 0 then f.take ring reply.answer
  else ⟨ring, false, { f with phase := .awaiting (now + reply.delay) reply.answer }⟩

/-- One step of the feed at time `now`. A feed that has to wait stays as it is. -/
def advance (f : Feed σ) (origin : Origin σ) (now : Nat) (ring : Ring) : After σ :=
  if !f.isReady now then ⟨ring, false, f⟩
  else if f.cancelled then f.halt ring false (some .cancelled)
  else match f.phase with
    | .asking => f.ask origin now ring
    | .awaiting _ answer => f.take ring answer
    | .blocked rest left _ => f.pour ring rest left
    | .stopped => ⟨ring, false, f⟩

end Feed
end ReadAhead
