import ReadAhead.Failure

/-! Byte sources. An origin opens a source at an offset of a file; the source then gives the bytes from
    there on, in answers of its own size and in its own time, until it answers with nothing or fails. A
    source opens lazily, so connecting takes no time. -/

namespace ReadAhead

/-- The answer of a source to one request. -/
structure Reply (σ : Type) where
  /-- Milliseconds until the answer is there. -/
  delay : Nat
  /-- The bytes, none of them at the end of the data. -/
  answer : Except Failure ByteArray
  next : σ

/-- Where sources come from, their states being of type `σ`. -/
structure Origin (σ : Type) where
  /-- The source for a URL from an offset on. Attempts to connect are numbered from zero. -/
  connect : (url : String) → (attempt start : Nat) → Except Failure σ
  /-- Asks a source for at most so many bytes. -/
  read : σ → (limit : Nat) → Reply σ
  /-- A source gives no more than it was asked for. -/
  read_le : ∀ {s : σ} {limit : Nat} {bytes : ByteArray}, (read s limit).answer = .ok bytes → bytes.size ≤ limit

namespace Origin
variable {σ : Type}

/-- What came of asking a source again and again. -/
structure Gathered (σ : Type) where
  /-- Milliseconds until the last answer. -/
  delay : Nat
  bytes : ByteArray
  /-- What the source failed with at last, if it did. -/
  failure : Option Failure
  source : σ

/-- Asks a source until `n` more bytes are there behind `done`, the data ends, or the source fails. -/
def gather (origin : Origin σ) (delay : Nat) (done : ByteArray) (source : σ) (n : Nat) : Gathered σ :=
  let reply := origin.read source n
  let delay := delay + reply.delay
  match reply.answer with
  | .error failure => ⟨delay, done, some failure, reply.next⟩
  | .ok bytes =>
    if bytes.size = 0 ∨ n ≤ bytes.size then ⟨delay, done ++ bytes, none, reply.next⟩
    else gather origin delay (done ++ bytes) reply.next (n - bytes.size)
termination_by n
decreasing_by omega

end Origin
end ReadAhead
