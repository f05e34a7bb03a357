import ReadAhead.Proofs.Ring.Representation
import ReadAhead.Word

/-! The arithmetic of a ring in numbers of 64 bits. Every sum, product and difference is given a second time, as one
    that fails where it would wrap (`Word.add?` and so on), and with them the functions that compute with positions
    and cursors, under their names with `Word?` behind. As long as the write position takes no more than 64 bits none
    of them fails, and they are the ones that count without bound: a cursor lies no further from the base than the
    write cursor, whatever its lap, and the base and that distance add up to a position. -/

namespace ReadAhead

/-! ### Checked numbers -/

namespace Word
variable {a b : Nat}

/-- The number, unless it takes more than 64 bits. -/
def fit? (n : Nat) : Option Nat := if n < wordBound then some n else none

def add? (a b : Nat) : Option Nat := fit? (a + b)

def mul? (a b : Nat) : Option Nat := fit? (a * b)

/-- The difference, unless it is below zero. -/
def sub? (a b : Nat) : Option Nat := if b ≤ a then some (a - b) else none

theorem add?_eq (h : a + b < wordBound) : add? a b = some (a + b) := if_pos h

theorem mul?_eq (h : a * b < wordBound) : mul? a b = some (a * b) := if_pos h

theorem sub?_eq (h : b ≤ a) : sub? a b = some (a - b) := if_pos h

example : add? (wordBound - 1) 1 = none ∧ sub? 0 1 = none := by decide

end Word

/-! ### Cursors -/

namespace Cursor
variable {c later : Cursor} {n capacity : Nat}

def locateWord? (position base capacity : Nat) : Option (Option Cursor) :=
  if capacity = 0 ∨ position < base then some none
  else do
    let distance ← Word.sub? position base
    some (some ⟨distance / capacity, distance % capacity⟩)

def advanceWord? (c : Cursor) (n capacity : Nat) : Option Cursor :=
  if capacity = 0 then some c
  else do
    let total ← Word.add? c.offset n
    let page ← Word.add? c.page (total / capacity)
    some ⟨page, total % capacity⟩

def linearWord? (c : Cursor) (capacity : Nat) : Option Nat := do
  let laps ← Word.mul? c.page capacity
  Word.add? laps c.offset

/-- A cursor that is not ahead is at no distance here, not at zero. -/
def distanceWord? (c later : Cursor) (capacity : Nat) : Option Nat := do
  let stop ← later.linearWord? capacity
  let start ← c.linearWord? capacity
  Word.sub? stop start

theorem locateWord?_eq (position base capacity : Nat) :
    locateWord? position base capacity = some (locate position base capacity) := by
  unfold locateWord? locate
  split
  · rfl
  · rename_i hin
    have hbase : base ≤ position := by omega
    rw [Word.sub?_eq hbase]
    rfl

theorem linearWord?_eq (h : c.linear capacity < wordBound) : c.linearWord? capacity = some (c.linear capacity) := by
  have hlaps : c.page * capacity < wordBound := Nat.lt_of_le_of_lt (Nat.le_add_right _ _) h
  rw [linearWord?, Word.mul?_eq hlaps]
  exact Word.add?_eq h

/-- A cursor is moved on within the words if where it gets to is as far from the start of page zero as a word can tell. -/
theorem advanceWord?_eq (h : c.linear capacity + n < wordBound) :
    c.advanceWord? n capacity = some (c.advance n capacity) := by
  unfold advanceWord? advance
  split
  · rfl
  · rename_i hc
    have hcapacity : 0 < capacity := Nat.pos_of_ne_zero hc
    have hlinear : c.linear capacity = c.page * capacity + c.offset := rfl
    have htotal : c.offset + n < wordBound := by omega
    have hpages : c.page + (c.offset + n) / capacity < wordBound := by
      -- A page is no more than its distance, since it is at least a byte long.
      have hmove := linear_advance hcapacity c n
      rw [advance, if_neg hc] at hmove
      calc c.page + (c.offset + n) / capacity
          ≤ (c.page + (c.offset + n) / capacity) * capacity := Nat.le_mul_of_pos_right _ hcapacity
        _ ≤ c.linear capacity + n := hmove ▸ Nat.le_add_right _ _
        _ < wordBound := h
    rw [Word.add?_eq htotal, Option.bind_eq_bind, Option.bind_some, Word.add?_eq hpages]
    rfl

theorem distanceWord?_eq (hle : c.linear capacity ≤ later.linear capacity) (h : later.linear capacity < wordBound) :
    c.distanceWord? later capacity = some (c.distanceTo later capacity) := by
  rw [distanceWord?, linearWord?_eq h, linearWord?_eq (Nat.lt_of_le_of_lt hle h)]
  exact Word.sub?_eq hle

end Cursor

/-! ### Rings -/

namespace Ring

def startWord? (r : Ring) : Option Nat := do
  let distance ← r.read.linearWord? r.capacity
  Word.add? r.base distance

def writePositionWord? (r : Ring) : Option Nat := do
  let distance ← r.write.linearWord? r.capacity
  Word.add? r.base distance

def freeWord? (r : Ring) : Option Nat := if r.isClosed then some 0 else Word.sub? r.capacity r.len

def slotWord? (r : Ring) (position : Nat) : Option (Option Cursor) :=
  if r.isClosed then some none
  else do
    let slot ← Cursor.locateWord? position r.base r.capacity
    some (slot.filter (·.within r.read r.write))

def isResidentWord? (r : Ring) (position : Nat) : Option Bool := do
  let slot ← r.slotWord? position
  some slot.isSome

def availabilityWord? (r : Ring) (position : Nat) : Option (Except RingError Availability) :=
  if r.isClosed then some (.error .closed)
  else do
    let resident ← r.isResidentWord? position
    if resident then some (.ok .resident)
    else match r.stop with
      | some stop => some (.ok (if stop ≤ position then .ended stop else .pending))
      | none => some (.ok .pending)

def wrapInWord? (store : ByteArray) (capacity offset : Nat) (data : ByteArray) : Option ByteArray := do
  let room ← Word.sub? capacity offset
  let first := min room data.size
  let stop ← Word.add? offset first
  let store ← Bytes.fill? store offset stop (← Bytes.slice? data 0 first)
  if first < data.size then do
    let rest ← Word.sub? data.size first
    Bytes.fill? store 0 rest (← Bytes.slice? data first data.size)
  else some store

def wrapOutWord? (store : ByteArray) (capacity offset n : Nat) : Option ByteArray := do
  let room ← Word.sub? capacity offset
  let first := min room n
  let stop ← Word.add? offset first
  let head ← Bytes.slice? store offset stop
  if first < n then do
    let rest ← Word.sub? n first
    let tail ← Bytes.slice? store 0 rest
    some (head ++ tail)
  else some head

def refusalWord? (r : Ring) (len : Nat) : Option (Option RingError) :=
  if r.isClosed then some (some .closed)
  else if r.capacity < len then some (some (.exceedsCapacity len r.capacity))
  else do
    let free ← Word.sub? r.capacity r.len
    some (if free < len then some (.insufficientSpace len free) else none)

def appendWord? (r : Ring) (data : ByteArray) : Option (After (Except RingError Nat)) := do
  match ← r.refusalWord? data.size with
  | some cause => some ⟨r, false, .error cause⟩
  | none =>
    if data.size = 0 then some ⟨r, false, .ok 0⟩
    else do
      let store ← wrapInWord? (← r.storage) r.capacity r.write.offset data
      let write ← r.write.advanceWord? data.size r.capacity
      let len ← Word.add? r.len data.size
      some ⟨{ r with storage := some store, write, len }, true, .ok data.size⟩

def readAtWord? (r : Ring) (n position : Nat) : Option (After (Except RingError ByteArray)) :=
  match r.storage with
  | none => some ⟨r, false, .error .closed⟩
  | some store =>
    if r.len = 0 then some ⟨r, false, .error .empty⟩
    else do
      match ← r.slotWord? position with
      | none => some ⟨r, false, .error (.notResident position)⟩
      | some slot => do
        let available ← slot.distanceWord? r.write r.capacity
        let n := min n available
        let bytes ← wrapOutWord? store r.capacity slot.offset n
        let read ← slot.advanceWord? n r.capacity
        let len ← read.distanceWord? r.write r.capacity
        some ⟨{ r with read, len }, true, .ok bytes⟩

def finishWord? (r : Ring) : Option (After Unit) :=
  if r.isClosed then some ⟨r, false, ()⟩
  else do
    let stop ← r.writePositionWord?
    some ⟨{ r with stop := some stop }, true, ()⟩

variable {r : Ring} {store data : ByteArray} {capacity offset n position : Nat}

theorem linear_read_le (h : Sound r) : r.read.linear r.capacity ≤ r.write.linear r.capacity := by
  have hlen := h.len
  omega

theorem linear_write_lt (hw : r.writePosition < wordBound) : r.write.linear r.capacity < wordBound :=
  Nat.lt_of_le_of_lt (Nat.le_add_left _ _) hw

theorem start_le_writePosition (h : Sound r) : r.start ≤ r.writePosition := by
  rw [writePosition_eq h]
  exact Nat.le_add_right _ _

theorem startWord?_eq (h : Sound r) (hw : r.writePosition < wordBound) : r.startWord? = some r.start := by
  have hread : r.read.linear r.capacity < wordBound := Nat.lt_of_le_of_lt (linear_read_le h) (linear_write_lt hw)
  rw [startWord?, Cursor.linearWord?_eq hread]
  exact Word.add?_eq (Nat.lt_of_le_of_lt (start_le_writePosition h) hw)

theorem writePositionWord?_eq (hw : r.writePosition < wordBound) : r.writePositionWord? = some r.writePosition := by
  rw [writePositionWord?, Cursor.linearWord?_eq (linear_write_lt hw)]
  exact Word.add?_eq hw

theorem freeWord?_eq (h : Sound r) : r.freeWord? = some r.free := by
  unfold freeWord? free
  split
  · rfl
  · exact Word.sub?_eq h.room

theorem slotWord?_eq (r : Ring) (position : Nat) : r.slotWord? position = some (r.slot? position) := by
  unfold slotWord? slot?
  split
  · rfl
  · rw [Cursor.locateWord?_eq]
    rfl

theorem isResidentWord?_eq (r : Ring) (position : Nat) :
    r.isResidentWord? position = some (r.isResident position) := by
  rw [isResidentWord?, slotWord?_eq]
  rfl

theorem availabilityWord?_eq (r : Ring) (position : Nat) :
    r.availabilityWord? position = some (r.availability position) := by
  unfold availabilityWord? availability
  split
  · rfl
  · rw [isResidentWord?_eq, Option.bind_eq_bind, Option.bind_some]
    split
    · rfl
    · cases r.stop <;> rfl

theorem refusalWord?_eq (h : Sound r) (len : Nat) : r.refusalWord? len = some (r.refusal? len) := by
  unfold refusalWord? refusal?
  split
  · rfl
  · split
    · rfl
    · rw [Word.sub?_eq h.room, Option.bind_eq_bind, Option.bind_some]

theorem finishWord?_eq (hw : r.writePosition < wordBound) : r.finishWord? = some r.finish := by
  unfold finishWord? finish
  split
  · rfl
  · rw [writePositionWord?_eq hw]
    rfl

/-! ### Copies -/

theorem wrapInWord?_eq (ho : offset ≤ capacity) (hc : capacity < wordBound) :
    wrapInWord? store capacity offset data = wrapIn? store capacity offset data := by
  have hstop : offset + min (capacity - offset) data.size < wordBound := by omega
  have hrest : min (capacity - offset) data.size ≤ data.size := Nat.min_le_right _ _
  unfold wrapInWord? wrapIn?
  simp only [Word.sub?_eq ho, Option.bind_eq_bind, Option.bind_some, Word.add?_eq hstop, Word.sub?_eq hrest]

theorem wrapOutWord?_eq (ho : offset ≤ capacity) (hs : store.size = capacity) (hc : capacity < wordBound) (hn : n ≤ capacity) :
    wrapOutWord? store capacity offset n = some (wrapOut store capacity offset n) := by
  have hstop : offset + min (capacity - offset) n < wordBound := by omega
  have hrest : min (capacity - offset) n ≤ n := Nat.min_le_right _ _
  have hhead : Bytes.slice? store offset (offset + min (capacity - offset) n) = _ :=
    Bytes.slice?_of_le (Nat.le_add_right _ _) (by omega)
  have htail : Bytes.slice? store 0 (n - min (capacity - offset) n) = _ :=
    Bytes.slice?_of_le (Nat.zero_le _) (by omega)
  unfold wrapOutWord? wrapOut
  simp only [Word.sub?_eq ho, Option.bind_eq_bind, Option.bind_some, Word.add?_eq hstop, Word.sub?_eq hrest, hhead, htail]
  split <;> rfl

/-- An append goes through as if there were no bound, if the write position behind it is within. -/
theorem appendWord?_eq (h : Sound r) (hc : r.capacity < wordBound) (hw : r.writePosition + data.size < wordBound) :
    r.appendWord? data = some (r.append data) := by
  have hplain := append?_eq h data
  unfold append? at hplain
  unfold appendWord?
  rw [refusalWord?_eq h, Option.bind_eq_bind, Option.bind_some, ← hplain]
  cases hr : r.refusal? data.size with
  | some cause => rfl
  | none =>
    by_cases hz : data.size = 0
    · simp only [if_pos hz]
    · obtain ⟨hopen, hroom⟩ := (refusal?_eq_none h).mp hr
      obtain ⟨store, hs⟩ := isClosed_eq_false_iff.mp hopen
      have hposition : r.writePosition = r.base + r.write.linear r.capacity := rfl
      have hoffset := h.write.offset_lt (by omega)
      have hmove : r.write.linear r.capacity + data.size < wordBound := by omega
      have hlen : r.len + data.size < wordBound := Nat.lt_of_le_of_lt hroom hc
      simp only [if_neg hz, hs, Option.bind_eq_bind, Option.bind_some, wrapInWord?_eq (Nat.le_of_lt hoffset) hc,
        Cursor.advanceWord?_eq hmove, Word.add?_eq hlen]

theorem readAtWord?_eq (h : Sound r) (hc : r.capacity < wordBound) (hw : r.writePosition < wordBound) (n position : Nat) :
    r.readAtWord? n position = some (r.readAt n position) := by
  unfold readAtWord? readAt
  cases hs : r.storage with
  | none => rfl
  | some store =>
    by_cases he : r.len = 0
    · simp only [if_pos he]
    · simp only [if_neg he, slotWord?_eq, Option.bind_eq_bind, Option.bind_some]
      cases hslot : r.slot? position with
      | none => rfl
      | some slot =>
        obtain ⟨-, hoffset, hlinear, hlow, hhigh⟩ := slot?_eq_some h hslot
        have hwrite := linear_write_lt hw
        have hwindow := writePosition_eq h
        have hroom := h.room
        have hposition : r.writePosition = r.base + r.write.linear r.capacity := rfl
        have hahead : slot.linear r.capacity ≤ r.write.linear r.capacity := by omega
        simp only [Cursor.distanceWord?_eq hahead hwrite, Option.bind_some]
        generalize hn : min n (slot.distanceTo r.write r.capacity) = k
        have hdistance : slot.distanceTo r.write r.capacity = r.write.linear r.capacity - slot.linear r.capacity := rfl
        have hmove := Cursor.linear_advance (by omega : 0 < r.capacity) slot k
        have hbytes : wrapOutWord? store r.capacity slot.offset k = _ :=
          wrapOutWord?_eq (Nat.le_of_lt hoffset) (h.storage store hs) hc (by omega)
        have hread : slot.advanceWord? k r.capacity = _ := Cursor.advanceWord?_eq (by omega)
        have hlen : (slot.advance k r.capacity).distanceWord? r.write r.capacity = _ :=
          Cursor.distanceWord?_eq (by omega) hwrite
        simp only [hbytes, hread, hlen, Option.bind_some]

end Ring
end ReadAhead
