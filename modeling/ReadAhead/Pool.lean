import ReadAhead.Bytes

/-! Pools of byte buffers of one length. A buffer that is given back waits in the pool for the next
    holder, as long as few enough wait there already; it keeps its bytes. Every length has one pool that
    all share. -/

namespace ReadAhead

/-- A buffer, known by its serial number in its pool. A buffer that nobody wrote to since it was made
    is all zeros and needs no bytes of its own. -/
structure Buffer where
  serial : Nat
  len : Nat
  written : Option ByteArray
  deriving DecidableEq

namespace Buffer

def bytes (b : Buffer) : ByteArray := b.written.getD (Bytes.zeros b.len)

/-- The buffer with every byte set to `byte`. -/
def fill (b : Buffer) (byte : UInt8) : Buffer :=
  { b with written := some (Bytes.ofFn b.len fun _ => byte) }

end Buffer

/-- A pool of buffers of `len` bytes. -/
structure Pool where
  len : Nat
  /-- How many buffers may wait in the pool. -/
  maxIdle : Nat
  /-- The buffers that wait, the last one given back first. -/
  idle : List Buffer
  /-- How many buffers were made. -/
  allocated : Nat
  /-- How many times a waiting buffer was handed out again. -/
  reused : Nat
  deriving DecidableEq

namespace Pool

/-- A pool that has handed out nothing. -/
def empty (len maxIdle : Nat) : Pool := ⟨len, maxIdle, [], 0, 0⟩

/-- Takes the buffer given back last, or makes one. -/
def acquire (p : Pool) : Buffer × Pool :=
  match p.idle with
  | b :: idle => (b, { p with idle, reused := p.reused + 1 })
  | [] => (⟨p.allocated, p.len, none⟩, { p with allocated := p.allocated + 1 })

/-- Takes a buffer back; one too many is dropped. -/
def release (p : Pool) (b : Buffer) : Pool :=
  if p.idle.length < p.maxIdle then { p with idle := b :: p.idle } else p

/-! ### Shared pools -/

/-- Bytes that the buffers waiting in one shared pool may take, unless it is one buffer alone. -/
def idleBytes : Nat := 64 * 1024 * 1024

/-- Buffers that may wait in one shared pool. -/
def idleCount : Nat := 16

/-- How many buffers of `len` bytes may wait in a shared pool. -/
def idleLimit (len : Nat) : Nat :=
  if len = 0 then idleCount else max 1 (min (idleBytes / len) idleCount)

end Pool
end ReadAhead
