/-! Why a ring refuses an operation. -/

namespace ReadAhead

/-- The causes for which a ring refuses an operation. -/
inductive RingError
  /-- A write is longer than the whole ring. -/
  | exceedsCapacity (len capacity : Nat)
  /-- A write is longer than the room left. -/
  | insufficientSpace (len free : Nat)
  /-- A read finds nothing buffered. -/
  | empty
  /-- A read names a position outside the window. -/
  | notResident (position : Nat)
  | closed
  deriving DecidableEq, Repr

namespace RingError

def message : RingError → String
  | exceedsCapacity len capacity => s!"write of {len} bytes exceeds buffer size {capacity}"
  | insufficientSpace len free => s!"not enough space: need {len} bytes, {free} free"
  | empty => "buffer is empty"
  | notResident position => s!"position {position} is not resident"
  | closed => "buffer is closed"

/-- Whether a write met the limits of the ring. -/
def isCapacity : RingError → Bool
  | exceedsCapacity _ _ | insufficientSpace _ _ => true
  | _ => false

end RingError
end ReadAhead
