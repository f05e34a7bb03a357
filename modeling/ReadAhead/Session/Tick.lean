import ReadAhead.Session

/-! What happens next in a session left to itself. Whoever can take a step takes it, feeds before the task
    whose turn it is; time moves only when nobody can, and then to the next moment that somebody waits
    for. -/

namespace ReadAhead
namespace Session
variable {σ : Type}

/-- Who can take a step. -/
inductive Mover
  | feed (k : Nat)
  | task (i : Nat)
  /-- The stream itself, when nobody holds it any more. -/
  | stream
  deriving DecidableEq

/-- Who takes the next step, if anyone can at this time. -/
def next? (s : Session σ) : Option Mover :=
  match s.feeds.findIdx? (·.isReady s.now) with
  | some k => some (.feed k)
  | none =>
    match s.turns.head?.filter s.taskReady with
    | some i => some (.task i)
    | none => if s.isForsaken then some .stream else none

def move (origin : Origin σ) (m : Mover) (s : Session σ) : Session σ :=
  match m with
  | .feed k => s.feedStep origin k
  | .task i => s.turn origin i
  | .stream => s.expire

/-- Nobody can take a step before time moves. -/
def IsSettled (s : Session σ) : Prop := s.next? = none

/-- When a waiting read gives up. -/
def deadline? : Task → Option Nat
  | .read r => match r.phase with
    | .waiting _ _ => some r.deadline
    | _ => none
  | .close _ => none

/-- The moments that feeds and tasks wait for. -/
def timers (s : Session σ) : List Nat := s.feeds.filterMap Feed.due? ++ s.tasks.filterMap deadline?

def nextDue? (s : Session σ) : Option Nat := (s.timers.filter (s.now < ·)).min?

inductive Event
  | step (m : Mover)
  | wait (due : Nat)
  deriving DecidableEq

/-- What happens next up to the time `limit`, if anything does. -/
def event? (limit : Option Nat) (s : Session σ) : Option Event :=
  match s.next? with
  | some m => some (.step m)
  | none => (s.nextDue?.filter fun due => limit.all (due ≤ ·)).map .wait

def happen (origin : Origin σ) (e : Event) (s : Session σ) : Session σ :=
  match e with
  | .step m => s.move origin m
  | .wait due => { s with now := due }

end Session
end ReadAhead
