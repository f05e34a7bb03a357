import ReadAhead.Bytes
import ReadAhead.Duration
import ReadAhead.Source
import ReadAhead.Url

/-! The reference file: its byte at position `p` is `p` modulo 251, so every byte tells where it comes
    from. Sources of it can be made slow, short-winded and faulty. -/

namespace ReadAhead
namespace Pattern

/-- The byte of the reference file at a position. -/
def byte (position : Nat) : UInt8 := UInt8.ofNat (position % 251)

/-- The `n` bytes of the reference file from `start` on. -/
def bytes (start n : Nat) : ByteArray := Bytes.ofFn n fun i => byte (start + i)

/-- How the sources of a reference file behave. -/
structure Traits where
  size : Nat
  /-- The most bytes that come at once, if that is not zero; else one byte comes. -/
  chunk : Nat
  /-- Milliseconds before every answer, up to the longest wait. -/
  delay : Nat
  /-- Where sources fail. -/
  failAt : Option Nat
  deriving DecidableEq, Repr

/-- A source of the reference file. -/
structure Source where
  traits : Traits
  start : Nat
  /-- The position of the byte that comes next. -/
  position : Nat
  cancelled : Bool
  closed : Bool
  deriving DecidableEq, Repr

namespace Source

/-- A source that has given nothing yet. -/
def fresh (traits : Traits) (start : Nat) : Source := ⟨traits, start, start, false, false⟩

/-- Where the source has no more bytes: the end of the file, or where it fails. -/
def limit (s : Source) : Nat := s.traits.failAt.elim s.traits.size (min s.traits.size)

/-- How many bytes come next, if `n` are asked for. -/
def next (s : Source) (n : Nat) : Nat := min (min n (max s.traits.chunk 1)) (s.limit - s.position)

/-- What there is to answer when at most `n` bytes are asked for: at the end of the file nothing, where the
    source fails a failure, and before that the next bytes. -/
def answer (s : Source) (n : Nat) : Except Failure ByteArray :=
  if s.traits.size ≤ s.position then .ok ByteArray.empty
  else match s.traits.failAt.filter (· ≤ s.position) with
    | some stop => .error (.network s!"connection reset at {stop}")
    | none => .ok (bytes s.position (s.next n))

/-- Asks for at most `n` bytes. A closed source fails, and nothing asked for takes no time; a cancelled
    source fails without waiting. -/
def read (s : Source) (n : Nat) : Reply Source :=
  if s.closed then ⟨0, .error .closed, s⟩
  else if n = 0 then ⟨0, .ok ByteArray.empty, s⟩
  else if s.cancelled then ⟨0, .error .cancelled, s⟩
  else
    let answer := s.answer n
    ⟨min s.traits.delay Duration.longestWait, answer, match answer with
      | .ok bytes => { s with position := s.position + bytes.size }
      | .error _ => s⟩

/-- Makes every later request fail. -/
def cancel (s : Source) : Source := { s with cancelled := true }

def close (s : Source) : Source := { s with closed := true, cancelled := true }

theorem size_answer {s : Source} {n : Nat} {b : ByteArray} (h : s.answer n = .ok b) : b.size ≤ n := by
  unfold answer at h
  split at h
  · obtain rfl := Except.ok.inj h
    simp
  · split at h
    · simp at h
    · obtain rfl := Except.ok.inj h
      simp only [bytes, Bytes.size_ofFn, next]
      omega

theorem size_read {s : Source} {n : Nat} {b : ByteArray} (h : (s.read n).answer = .ok b) : b.size ≤ n := by
  unfold read at h
  split at h
  · simp at h
  · split at h
    · obtain rfl := Except.ok.inj h
      simp
    · split at h
      · simp at h
      · exact size_answer h

end Source

/-! ### Origins of the reference file -/

/-- How an origin of the reference file behaves. -/
structure Server where
  traits : Traits
  /-- The attempts to connect that are refused. -/
  refused : List Nat
  /-- What takes the place of every network failure of a source. -/
  disguise : Option Failure

/-- A failure as the origin lets it be seen. -/
def Server.disguised (server : Server) (failure : Failure) : Failure :=
  match failure, server.disguise with
  | .network _, some other => other
  | _, _ => failure

/-- An answer as the origin lets it be seen. -/
def Server.shown (server : Server) (answer : Except Failure ByteArray) : Except Failure ByteArray :=
  match answer with
  | .ok bytes => .ok bytes
  | .error failure => .error (server.disguised failure)

/-- Asks a source, as the origin lets its answer be seen. -/
def Server.read (server : Server) (s : Source) (n : Nat) : Reply Source :=
  let reply := s.read n
  { reply with answer := server.shown reply.answer }

theorem Server.shown_eq_ok {server : Server} {answer : Except Failure ByteArray} {b : ByteArray} :
    server.shown answer = .ok b ↔ answer = .ok b := by
  cases answer <;> simp [shown]

/-- Connects to the reference file. A refused attempt fails first, then a text that is no URL. -/
def Server.connect (server : Server) (url : String) (attempt start : Nat) : Except Failure Source :=
  if server.refused.contains attempt then .error (.network "refused")
  else match Url.parse url with
    | .error e => .error (.invalidUrl e.message)
    | .ok _ => .ok (Source.fresh server.traits start)

/-- The origin of the reference file. -/
def Server.origin (server : Server) : Origin Source where
  connect := server.connect
  read := server.read
  read_le := by
    intro s limit b h
    exact Source.size_read (Server.shown_eq_ok.mp h)

end Pattern
end ReadAhead
