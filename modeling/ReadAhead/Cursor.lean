/-! Cursors of a ring. A ring of capacity `c` bound at `base` keeps the byte of each position
    `p ≥ base` in slot `(p - base) % c`, on lap `(p - base) / c`. A cursor carries the lap, here
    called the page, beside the offset, so two cursors at one offset on different laps differ. -/

namespace ReadAhead

/-- A slot of a ring on one of its laps. -/
structure Cursor where
  page : Nat
  offset : Nat
  deriving DecidableEq, Repr, Inhabited

namespace Cursor

/-- The slot that a ring is bound at. -/
def zero : Cursor := ⟨0, 0⟩

/-- The slot of `position` in a ring of `capacity` bytes bound at `base`. Positions before the base
    have none, and a ring without room has none at all. -/
def locate (position base capacity : Nat) : Option Cursor :=
  if capacity = 0 ∨ position < base then none
  else some ⟨(position - base) / capacity, (position - base) % capacity⟩

/-- The cursor `n` bytes further on. In a ring without room a cursor stays. -/
def advance (c : Cursor) (n capacity : Nat) : Cursor :=
  if capacity = 0 then c
  else ⟨c.page + (c.offset + n) / capacity, (c.offset + n) % capacity⟩

/-- Bytes from the start of page zero. -/
def linear (c : Cursor) (capacity : Nat) : Nat := c.page * capacity + c.offset

/-- Bytes from `c` on to `later`; none if `later` is not ahead. -/
def distanceTo (c later : Cursor) (capacity : Nat) : Nat := later.linear capacity - c.linear capacity

end Cursor

/-- Where a page lies beside the pages of a read and a write cursor. -/
inductive PageRelation
  /-- Earlier than the read page. -/
  | before
  /-- The page that both cursors are on. -/
  | shared
  /-- The read page, with the write cursor on a later one. -/
  | read
  /-- Later than the read page and earlier than the write page. -/
  | between
  /-- The write page, with the read cursor on an earlier one. -/
  | write
  /-- Later than the write page. -/
  | after
  deriving DecidableEq, Repr

namespace PageRelation

/-- The relation of `page` to the read and the write page. -/
def of (page readPage writePage : Nat) : PageRelation :=
  if page < readPage then before
  else if page > writePage then after
  else if readPage = writePage then shared
  else if page = readPage then read
  else if page = writePage then write
  else between

def name : PageRelation → String
  | before => "Before"
  | shared => "Shared"
  | read => "Read"
  | between => "Between"
  | write => "Write"
  | after => "After"

end PageRelation

/-- Whether `slot` lies in the window from `read` up to `write`. -/
def Cursor.within (slot read write : Cursor) : Bool :=
  match PageRelation.of slot.page read.page write.page with
  | .shared => decide (read.offset ≤ slot.offset ∧ slot.offset < write.offset)
  | .read => decide (read.offset ≤ slot.offset)
  | .write => decide (slot.offset < write.offset)
  | .between => true
  | .before | .after => false

end ReadAhead
