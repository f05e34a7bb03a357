import ReadAhead.Session.Run

/-! What the owner of a stream can ask for, one thing after the other. After each the session runs until
    nobody can take a step at that time, so between two commands everything waits. -/

namespace ReadAhead
namespace Session
variable {σ : Type}

inductive Command
  /-- Reads `len` bytes at `position`, and waits for the result. -/
  | read (len position : Nat) (timeout : Option Duration)
  /-- Starts such a read, and does not wait for it. -/
  | start (len position : Nat) (timeout : Option Duration)
  /-- Waits until task `i` is over. -/
  | join (i : Nat)
  /-- Gives up task `i` if it is a read that is not over. -/
  | abandon (i : Nat)
  /-- Closes the stream, and waits until it is closed. -/
  | close
  /-- Gives up the stream. -/
  | letGo
  /-- Lets milliseconds pass, up to the longest wait. -/
  | pass (millis : Nat)
  deriving DecidableEq

/-- Carries out a command. -/
def carryOut (origin : Origin σ) (c : Command) (s : Session σ) : Session σ :=
  match c with
  | .read len position timeout => (s.read origin len position timeout).2
  | .start len position timeout => s.start len position timeout
  | .join i => s.await origin i
  | .abandon i => (s.abandon i).2
  | .close => s.close origin
  | .letGo => s.letGo
  | .pass millis => s.passUntil origin (s.now + min millis Duration.longestWait)

/-- Carries out a command and lets the session settle. -/
def perform (origin : Origin σ) (c : Command) (s : Session σ) : Session σ := (s.carryOut origin c).settle origin

/-- Carries out command after command. -/
def performAll (origin : Origin σ) (cs : List Command) (s : Session σ) : Session σ :=
  cs.foldl (fun s c => s.perform origin c) s

end Session
end ReadAhead
