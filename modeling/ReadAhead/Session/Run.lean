import ReadAhead.Session.Effort

/-! A session at work. It is run until nobody can take a step, until a time is reached, or until a task is
    over; on top of that stand the operations of its owner that wait for their result. -/

namespace ReadAhead
namespace Session
variable {σ : Type}

/-- Runs the session until there is `enough`, or until nothing happens up to the time `limit`. -/
def run (origin : Origin σ) (limit : Option Nat) (enough : Session σ → Bool) (s : Session σ) : Session σ :=
  if enough s then s
  else match _h : s.event? limit with
    | none => s
    | some e => run origin limit enough (s.happen origin e)
termination_by s.effort
decreasing_by exact effort_happen _h

/-- Runs whatever can run without time moving. -/
def settle (origin : Origin σ) (s : Session σ) : Session σ := s.run origin (some s.now) fun _ => false

/-- Lets time pass up to `time`; what is due then has happened. -/
def passUntil (origin : Origin σ) (time : Nat) (s : Session σ) : Session σ :=
  let now := max s.now time
  { s.run origin (some time) fun _ => false with now }

/-- Whether task `i` is over. -/
def isOver (s : Session σ) (i : Nat) : Bool := (s.tasks[i]?).all Task.isOver

/-- Runs the session until task `i` is over, and then whatever else can run at that time. -/
def await (origin : Origin σ) (i : Nat) (s : Session σ) : Session σ :=
  (s.run origin none fun t => t.isOver i).settle origin

/-- The result of read `i`, once there is one. -/
def result? (s : Session σ) (i : Nat) : Option (Except Failure Delivery) :=
  match s.tasks[i]? with
  | some (.read r) => match r.phase with
    | .done result => some result
    | _ => none
  | _ => none

/-- How many of the tasks are not over. -/
def unfinished (s : Session σ) : Nat := s.tasks.countP fun t => !t.isOver

/-! ### Operations that wait for their result -/

/-- Reads `len` bytes at `position`. -/
def read (origin : Origin σ) (len position : Nat) (timeout : Option Duration) (s : Session σ) :
    Option (Except Failure Delivery) × Session σ :=
  let i := s.tasks.length
  let s := (s.start len position timeout).await origin i
  (s.result? i, s)

/-- Closes the stream. -/
def close (origin : Origin σ) (s : Session σ) : Session σ := s.startClose.await origin s.tasks.length

end Session
end ReadAhead
