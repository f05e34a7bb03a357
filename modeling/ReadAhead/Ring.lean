import ReadAhead.Bytes
import ReadAhead.Cursor
import ReadAhead.Ring.Error

/-! A ring: a circular byte store addressed by absolute file position. A producer appends with `write`;
    a reader takes bytes with `readAt`, naming the position it wants, and so gives up all before it. The
    readable window thus starts at the read cursor. Whether a position is readable is decided on its
    page and offset against both cursors. Closing drops the storage for good. -/

namespace ReadAhead

/-- A circular store of `capacity` bytes. -/
structure Ring where
  capacity : Nat
  /-- The bytes; none once the ring is closed. -/
  storage : Option ByteArray
  /-- The position of page zero, offset zero. -/
  base : Nat
  read : Cursor
  write : Cursor
  /-- How many bytes are buffered. -/
  len : Nat
  /-- Where the producer stopped, if it has since the last reset. -/
  stop : Option Nat
  deriving DecidableEq

/-- What can be expected at a position. -/
inductive Availability
  | resident
  /-- The byte is not buffered, and the producer may still bring it. -/
  | pending
  /-- The producer stopped at `stop` without reaching the position. -/
  | ended (stop : Nat)
  deriving DecidableEq, Repr

namespace Ring

/-- What an operation leaves: the ring after it, whether it wakes those who wait for a change of the
    ring, and its answer. -/
structure After (α : Type) where
  ring : Ring
  woke : Bool
  answer : α

/-- A ring over `storage` whose first byte is position `start`. The old bytes of `storage` are never
    readable. -/
def onStorage (storage : ByteArray) (start : Nat) : Ring where
  capacity := storage.size
  storage := some storage
  base := start
  read := .zero
  write := .zero
  len := 0
  stop := none

/-- A ring of `capacity` bytes whose first byte is position `start`. -/
def bound (capacity start : Nat) : Ring := onStorage (Bytes.zeros capacity) start

/-- A closed ring without room. -/
def vacant : Ring := ⟨0, none, 0, .zero, .zero, 0, none⟩

/-! ### What a ring shows -/

def isClosed (r : Ring) : Bool := r.storage.isNone

def start (r : Ring) : Nat := r.base + r.read.linear r.capacity

/-- The position that the next write lands on. -/
def writePosition (r : Ring) : Nat := r.base + r.write.linear r.capacity

/-- The room left; none once the ring is closed. -/
def free (r : Ring) : Nat := if r.isClosed then 0 else r.capacity - r.len

/-- The slot of a readable position. -/
def slot? (r : Ring) (position : Nat) : Option Cursor :=
  if r.isClosed then none
  else (Cursor.locate position r.base r.capacity).filter (·.within r.read r.write)

def isResident (r : Ring) (position : Nat) : Bool := (r.slot? position).isSome

/-- What can be expected at `position`. -/
def availability (r : Ring) (position : Nat) : Except RingError Availability :=
  if r.isClosed then .error .closed
  else if r.isResident position then .ok .resident
  else match r.stop with
    | some stop => .ok (if stop ≤ position then .ended stop else .pending)
    | none => .ok .pending

/-! ### Operations -/

/-- `data` put at `offset` of a store of `capacity` bytes, the part that does not fit before its end put
    at its beginning. -/
def wrapIn (store : ByteArray) (capacity offset : Nat) (data : ByteArray) : ByteArray :=
  let first := min (capacity - offset) data.size
  let store := Bytes.overlay store offset (data.extract 0 first)
  if first < data.size then Bytes.overlay store 0 (data.extract first data.size) else store

/-- The `n` bytes at `offset` of a store of `capacity` bytes, read on at its beginning when its end is
    reached. -/
def wrapOut (store : ByteArray) (capacity offset n : Nat) : ByteArray :=
  let first := min (capacity - offset) n
  let head := store.extract offset (offset + first)
  if first < n then head ++ store.extract 0 (n - first) else head

/-- Why `len` bytes cannot be appended, if they cannot. -/
def refusal? (r : Ring) (len : Nat) : Option RingError :=
  if r.isClosed then some .closed
  else if r.capacity < len then some (.exceedsCapacity len r.capacity)
  else if r.capacity - r.len < len then some (.insufficientSpace len (r.capacity - r.len))
  else none

/-- The ring with `data` behind the write cursor. -/
def put : Ring → ByteArray → Ring
  | ⟨capacity, storage, base, read, write, len, stop⟩, data =>
    ⟨capacity, storage.map fun store => wrapIn store capacity write.offset data, base, read,
      write.advance data.size capacity, len + data.size, stop⟩

/-- Appends all of `data` or nothing. -/
def append (r : Ring) (data : ByteArray) : After (Except RingError Nat) :=
  match r.refusal? data.size with
  | some cause => ⟨r, false, .error cause⟩
  | none => if data.size = 0 then ⟨r, false, .ok 0⟩ else ⟨r.put data, true, .ok data.size⟩

/-- The bytes from `position` on, at most `n` of them and as many as are buffered. They and all before
    them are given up. -/
def readAt (r : Ring) (n position : Nat) : After (Except RingError ByteArray) :=
  match r.storage with
  | none => ⟨r, false, .error .closed⟩
  | some store =>
    if r.len = 0 then ⟨r, false, .error .empty⟩
    else match r.slot? position with
      | none => ⟨r, false, .error (.notResident position)⟩
      | some slot =>
        let n := min n (slot.distanceTo r.write r.capacity)
        let read := slot.advance n r.capacity
        ⟨{ r with read, len := read.distanceTo r.write r.capacity }, true,
          .ok (wrapOut store r.capacity slot.offset n)⟩

/-- Empties the ring and binds it anew, so that the next byte written is position `start`. -/
def reset (r : Ring) (start : Nat) : After (Except RingError Unit) :=
  if r.isClosed then ⟨r, false, .error .closed⟩
  else ⟨{ r with base := start, read := .zero, write := .zero, len := 0, stop := none }, true, .ok ()⟩

/-- Records that the producer stopped at the write position. A closed ring stays as it is. -/
def finish (r : Ring) : After Unit :=
  if r.isClosed then ⟨r, false, ()⟩
  else ⟨{ r with stop := some r.writePosition }, true, ()⟩

/-- Gives up the storage. A closed ring stays as it is. -/
def close (r : Ring) : After Unit :=
  if r.isClosed then ⟨r, false, ()⟩
  else ⟨{ r with storage := none }, true, ()⟩

end Ring
end ReadAhead
