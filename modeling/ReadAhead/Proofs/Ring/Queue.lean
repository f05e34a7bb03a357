import ReadAhead.Proofs.Ring.Sound

/-! A ring is a queue of bytes that knows the position of its first byte. The queue has no storage, no laps
    and no cursors: it is the list of the bytes that can still be read. The relation `Shows` ties a ring to
    the queue it stands for, every operation keeps it and answers as the queue does (`shows_step`), so no
    sequence of operations tells the two apart. -/

namespace ReadAhead

/-- A queue of bytes, the first of them at position `start`. -/
structure Queue where
  capacity : Nat
  start : Nat
  bytes : List UInt8
  /-- Where the producer stopped, if it has since the last reset. -/
  stop : Option Nat
  closed : Bool

namespace Ring

inductive Op
  | append (data : ByteArray)
  | readAt (n position : Nat)
  | reset (start : Nat)
  | finish
  | close
  | isResident (position : Nat)
  | availability (position : Nat)
  | look

/-- What a ring shows of itself. -/
structure View where
  capacity : Nat
  start : Nat
  writePosition : Nat
  len : Nat
  free : Nat
  stop : Option Nat
  closed : Bool

inductive Answer
  | appended (result : Except RingError Nat)
  | read (result : Except RingError (List UInt8))
  | reset (result : Except RingError Unit)
  | done
  | resident (is : Bool)
  | availability (result : Except RingError Availability)
  | view (view : View)

def step (r : Ring) : Op → Answer × Ring
  | .append data => (.appended (r.append data).answer, (r.append data).ring)
  | .readAt n position =>
    (.read ((r.readAt n position).answer.map fun bytes => bytes.data.toList), (r.readAt n position).ring)
  | .reset start => (.reset (r.reset start).answer, (r.reset start).ring)
  | .finish => (.done, r.finish.ring)
  | .close => (.done, r.close.ring)
  | .isResident position => (.resident (r.isResident position), r)
  | .availability position => (.availability (r.availability position), r)
  | .look => (.view ⟨r.capacity, r.start, r.writePosition, r.len, r.free, r.stop, r.isClosed⟩, r)

/-- The answers to one operation after the other, and the ring after all of them. -/
def run : List Op → Ring → List Answer × Ring
  | [], r => ([], r)
  | op :: ops, r => ((r.step op).1 :: (run ops (r.step op).2).1, (run ops (r.step op).2).2)

end Ring

namespace Queue

def fresh (capacity start : Nat) : Queue := ⟨capacity, start, [], none, false⟩

def tail (q : Queue) : Nat := q.start + q.bytes.length

def holds (q : Queue) (position : Nat) : Bool :=
  !q.closed && decide (q.start ≤ position) && decide (position < q.tail)

/-- Appends all of `data` or nothing. -/
def append (q : Queue) (data : ByteArray) : Except RingError Nat × Queue :=
  if q.closed then (.error .closed, q)
  else if q.capacity < data.size then (.error (.exceedsCapacity data.size q.capacity), q)
  else if q.capacity - q.bytes.length < data.size then
    (.error (.insufficientSpace data.size (q.capacity - q.bytes.length)), q)
  else (.ok data.size, { q with bytes := q.bytes ++ data.data.toList })

/-- Takes up to `n` bytes from `position` on, and drops all before them. -/
def readAt (q : Queue) (n position : Nat) : Except RingError (List UInt8) × Queue :=
  if q.closed then (.error .closed, q)
  else if q.bytes.length = 0 then (.error .empty, q)
  else if q.holds position then
    let rest := q.bytes.drop (position - q.start)
    (.ok (rest.take n), { q with start := position + (rest.take n).length, bytes := rest.drop n })
  else (.error (.notResident position), q)

def availability (q : Queue) (position : Nat) : Except RingError Availability :=
  if q.closed then .error .closed
  else if q.holds position then .ok .resident
  else match q.stop with
    | some stop => .ok (if stop ≤ position then .ended stop else .pending)
    | none => .ok .pending

/-- The answer to an operation, and the queue after it. Closing is for good and leaves the positions. -/
def step (q : Queue) : Ring.Op → Ring.Answer × Queue
  | .append data => (.appended (q.append data).1, (q.append data).2)
  | .readAt n position => (.read (q.readAt n position).1, (q.readAt n position).2)
  | .reset start =>
    if q.closed then (.reset (.error .closed), q) else (.reset (.ok ()), fresh q.capacity start)
  | .finish => (.done, if q.closed then q else { q with stop := some q.tail })
  | .close => (.done, { q with closed := true })
  | .isResident position => (.resident (q.holds position), q)
  | .availability position => (.availability (q.availability position), q)
  | .look =>
    (.view ⟨q.capacity, q.start, q.tail, q.bytes.length, if q.closed then 0 else q.capacity - q.bytes.length, q.stop,
      q.closed⟩, q)

/-- The answers to one operation after the other, and the queue after all of them. -/
def run : List Ring.Op → Queue → List Ring.Answer × Queue
  | [], q => ([], q)
  | op :: ops, q => ((q.step op).1 :: (run ops (q.step op).2).1, (run ops (q.step op).2).2)

/-! ### What a queue keeps -/

theorem capacity_step (q : Queue) (op : Ring.Op) : (q.step op).2.capacity = q.capacity := by
  cases op with
  | append data =>
    simp only [step, append]
    repeat' split
    all_goals rfl
  | readAt n position =>
    simp only [step, readAt]
    repeat' split
    all_goals rfl
  | reset start =>
    simp only [step]
    split <;> rfl
  | finish =>
    simp only [step]
    split <;> rfl
  | _ => rfl

theorem capacity_run (ops : List Ring.Op) (q : Queue) : (run ops q).2.capacity = q.capacity := by
  induction ops generalizing q with
  | nil => rfl
  | cons op ops ih => exact (ih (q.step op).2).trans (capacity_step q op)

end Queue

namespace Ring
variable {r : Ring} {q : Queue} {data : ByteArray}

/-- The ring stands for the queue. Of a closed ring only the positions are left. -/
structure Shows (r : Ring) (q : Queue) : Prop where
  sound : Sound r
  capacity : q.capacity = r.capacity
  start : q.start = r.start
  length : q.bytes.length = r.len
  stop : q.stop = r.stop
  closed : q.closed = r.isClosed
  byte : r.isClosed = false → ∀ i < r.len, q.bytes[i]? = r.byte? (r.start + i)

namespace Shows

theorem fresh (storage : ByteArray) (start : Nat) : Shows (onStorage storage start) (Queue.fresh storage.size start) where
  sound := sound_onStorage storage start
  capacity := rfl
  start := by simp [Queue.fresh, onStorage, Ring.start]
  length := rfl
  stop := rfl
  closed := rfl
  byte := fun _ i hi => absurd hi (Nat.not_lt_zero i)

variable (h : Shows r q)
include h

theorem tail_eq : q.tail = r.writePosition := by
  rw [Queue.tail, h.start, h.length, writePosition_eq h.sound]

theorem holds_eq (position : Nat) : q.holds position = r.isResident position := by
  rw [isResident_eq_decide h.sound, Queue.holds, h.closed, h.start, h.tail_eq]

theorem refusal?_eq (n : Nat) :
    r.refusal? n =
      if q.closed then some .closed
      else if q.capacity < n then some (.exceedsCapacity n q.capacity)
      else if q.capacity - q.bytes.length < n then some (.insufficientSpace n (q.capacity - q.bytes.length))
      else none := by
  rw [refusal?, h.closed, h.capacity, h.length]

theorem append_refused {cause : RingError} (hr : r.refusal? data.size = some cause) :
    q.append data = (.error cause, q) := by
  rw [h.refusal?_eq] at hr
  unfold Queue.append
  split at hr
  · rw [if_pos ‹_›, Option.some.inj hr]
  · rw [if_neg ‹_›]
    split at hr
    · rw [if_pos ‹_›, Option.some.inj hr]
    · rw [if_neg ‹_›]
      split at hr
      · rw [if_pos ‹_›, Option.some.inj hr]
      · cases hr

theorem append_taken (hr : r.refusal? data.size = none) :
    q.append data = (.ok data.size, { q with bytes := q.bytes ++ data.data.toList }) := by
  rw [h.refusal?_eq] at hr
  unfold Queue.append
  split at hr
  · cases hr
  · rw [if_neg ‹_›]
    split at hr
    · cases hr
    · rw [if_neg ‹_›]
      split at hr
      · cases hr
      · rw [if_neg ‹_›]

theorem append (data : ByteArray) :
    (r.append data).answer = (q.append data).1 ∧ Shows (r.append data).ring (q.append data).2 := by
  rcases append_cases r data with ⟨cause, hr, he⟩ | ⟨hr, hz, he⟩ | ⟨hr, hpos, he⟩
  · rw [he, h.append_refused hr]
    exact ⟨rfl, h⟩
  · have hnil : data.data.toList = [] :=
      List.eq_nil_of_length_eq_zero (by rw [Array.length_toList, ByteArray.size_data, hz])
    rw [he, h.append_taken hr, hz, hnil]
    simp only [List.append_nil]
    exact ⟨trivial, h⟩
  · obtain ⟨hopen, hroom⟩ := (refusal?_eq_none h.sound).mp hr
    rw [he, h.append_taken hr]
    refine ⟨rfl, sound_put h.sound hroom, h.capacity, h.start, ?_, h.stop, ?_, fun _ i hi => ?_⟩
    · simp [h.length, ByteArray.size_data]
    · simp [h.closed]
    · have hwindow := writePosition_eq h.sound
      rw [len_put] at hi
      rw [start_put]
      by_cases hold : i < r.len
      · rw [List.getElem?_append_left (by rw [h.length]; exact hold), h.byte hopen i hold,
          byte?_put_old h.sound hroom (by omega) (by omega)]
      · have hnew := byte?_put_new h.sound hroom hopen (i := i - r.len) (by omega)
        have hpos : r.writePosition + (i - r.len) = r.start + i := by omega
        rw [List.getElem?_append_right (by rw [h.length]; omega), h.length, ← hpos, hnew, Array.getElem?_toList]

section Taken
variable {n position : Nat} {bytes : ByteArray} {left : Ring} (htaken : Taken r n position bytes left)
  (hres : r.isResident position = true)

include htaken hres in
/-- The bytes that a read takes out of the ring are those that the queue gives. -/
theorem toList_taken : bytes.data.toList = (q.bytes.drop (position - q.start)).take n := by
  obtain ⟨hopen, hlow, hhigh⟩ := (isResident_iff h.sound).mp hres
  have hwindow := writePosition_eq h.sound
  have hsize := htaken.size
  have hlength := h.length
  apply List.ext_getElem?
  intro i
  rw [Array.getElem?_toList]
  by_cases hi : i < bytes.size
  · have hback : r.start + (position - r.start + i) = position + i := by omega
    rw [htaken.byte i hi, List.getElem?_take_of_lt (by omega), List.getElem?_drop, h.start,
      h.byte hopen _ (by omega), hback]
  · rw [Bytes.getElem?_of_size_le (by omega), List.getElem?_eq_none]
    rw [List.length_take, List.length_drop, h.start]
    omega

include htaken hres in
/-- What is left of the ring stands for the queue without all before the end of the read. -/
theorem taken : Shows left
    { q with start := position + bytes.size, bytes := (q.bytes.drop (position - q.start)).drop n } := by
  obtain ⟨hopen, hlow, hhigh⟩ := (isResident_iff h.sound).mp hres
  have hwindow := writePosition_eq h.sound
  have hrest := writePosition_eq htaken.sound
  have hsize := htaken.size
  have hlength := h.length
  have hstart := htaken.start
  have hwrite := htaken.writePosition
  refine ⟨htaken.sound, ?_, hstart.symm, ?_, ?_, ?_, fun _ i hi => ?_⟩
  · rw [htaken.capacity]
    exact h.capacity
  · rw [List.length_drop, List.length_drop, h.start]
    omega
  · rw [htaken.stop]
    exact h.stop
  · rw [htaken.isClosed_eq]
    exact h.closed
  · have hback : r.start + (position - r.start + (n + i)) = left.start + i := by omega
    rw [List.getElem?_drop, List.getElem?_drop, h.start, h.byte hopen _ (by omega), htaken.byte?_eq, hback]

end Taken

theorem readAt (n position : Nat) :
    (r.readAt n position).answer.map (fun bytes => bytes.data.toList) = (q.readAt n position).1 ∧
      Shows (r.readAt n position).ring (q.readAt n position).2 := by
  have hclosed := h.closed
  have hlength := h.length
  have hholds := h.holds_eq position
  cases hres : r.isResident position with
  | false =>
    rw [hres] at hholds
    rw [readAt_of_not_resident hres]
    unfold Queue.readAt
    rw [hclosed, hlength, hholds]
    by_cases hc : r.isClosed = true
    · simp only [if_pos hc]
      exact ⟨rfl, h⟩
    · by_cases he : r.len = 0
      · simp only [if_neg hc, if_pos he]
        exact ⟨rfl, h⟩
      · simp only [if_neg hc, if_neg he]
        exact ⟨rfl, h⟩
  | true =>
    obtain ⟨hopen, hlow, hhigh⟩ := (isResident_iff h.sound).mp hres
    obtain ⟨bytes, left, hread, htaken⟩ := readAt_of_resident h.sound hres n
    have hwindow := writePosition_eq h.sound
    have hnonempty : r.len ≠ 0 := by omega
    have hlist := h.toList_taken htaken hres
    have htake : ((q.bytes.drop (position - q.start)).take n).length = bytes.size := by
      rw [← hlist, Array.length_toList, ByteArray.size_data]
    have hq : q.readAt n position = (.ok ((q.bytes.drop (position - q.start)).take n),
        { q with start := position + bytes.size, bytes := (q.bytes.drop (position - q.start)).drop n }) := by
      unfold Queue.readAt
      rw [hclosed, hopen, hlength, hholds, hres]
      simp only [Bool.false_eq_true, if_false, if_true, if_neg hnonempty, htake]
    rw [hread, hq, ← hlist]
    exact ⟨rfl, h.taken htaken hres⟩

theorem reset (start : Nat) (hopen : r.isClosed = false) : Shows (r.emptied start) (Queue.fresh q.capacity start) where
  sound := sound_emptied h.sound start
  capacity := h.capacity
  start := start_emptied.symm
  length := rfl
  stop := rfl
  closed := hopen.symm
  byte := fun _ i hi => absurd hi (Nat.not_lt_zero i)

theorem finish : Shows r.finish.ring (if q.closed then q else { q with stop := some q.tail }) := by
  cases hopen : r.isClosed with
  | true =>
    rw [finish_of_closed hopen, if_pos (h.closed.trans hopen)]
    exact h
  | false =>
    have hsound := sound_finish h.sound
    have hstop : some q.tail = some r.writePosition := congrArg some h.tail_eq
    rw [finish_of_open hopen] at hsound ⊢
    rw [if_neg (by simp [h.closed, hopen])]
    exact ⟨hsound, h.capacity, h.start, h.length, hstop, h.closed, h.byte⟩

theorem close : Shows r.close.ring { q with closed := true } := by
  have hclosed := isClosed_close r
  refine ⟨sound_close h.sound, ?_, ?_, ?_, ?_, hclosed.symm, fun hopen => absurd hclosed (by simp [hopen])⟩
  all_goals
    unfold Ring.close
    split
  · exact h.capacity
  · exact h.capacity
  · exact h.start
  · exact h.start
  · exact h.length
  · exact h.length
  · exact h.stop
  · exact h.stop

/-- Every operation is answered as the queue answers it, and leaves a ring that stands for the queue left. -/
theorem step (op : Op) : (r.step op).1 = (q.step op).1 ∧ Shows (r.step op).2 (q.step op).2 := by
  cases op with
  | append data => exact ⟨congrArg Answer.appended (h.append data).1, (h.append data).2⟩
  | readAt n position => exact ⟨congrArg Answer.read (h.readAt n position).1, (h.readAt n position).2⟩
  | reset start =>
    cases hopen : r.isClosed with
    | true =>
      simp only [Ring.step, Queue.step, reset_of_closed hopen, if_pos (h.closed.trans hopen)]
      exact ⟨trivial, h⟩
    | false =>
      simp only [Ring.step, Queue.step, reset_of_open hopen, if_neg (show ¬q.closed = true by simp [h.closed, hopen])]
      exact ⟨trivial, h.reset start hopen⟩
  | finish => exact ⟨rfl, h.finish⟩
  | close => exact ⟨rfl, h.close⟩
  | isResident position => exact ⟨congrArg Answer.resident (h.holds_eq position).symm, h⟩
  | availability position =>
    refine ⟨congrArg Answer.availability ?_, h⟩
    cases hstop : r.stop with
    | none => simp [Ring.availability, Queue.availability, h.closed, h.holds_eq, h.stop, hstop]
    | some stop => simp [Ring.availability, Queue.availability, h.closed, h.holds_eq, h.stop, hstop]
  | look =>
    refine ⟨congrArg Answer.view ?_, h⟩
    rw [h.capacity, h.start, h.tail_eq, h.length, h.stop, h.closed]
    rfl

theorem run (ops : List Op) : (Ring.run ops r).1 = (Queue.run ops q).1 ∧ Shows (Ring.run ops r).2 (Queue.run ops q).2 := by
  induction ops generalizing r q with
  | nil => exact ⟨rfl, h⟩
  | cons op ops ih =>
    obtain ⟨hanswer, hnext⟩ := h.step op
    obtain ⟨hanswers, hlast⟩ := ih hnext
    exact ⟨by rw [Ring.run, Queue.run, hanswer, hanswers], hlast⟩

end Shows

/-- A ring over whatever storage answers every sequence of operations as the queue does. After a reset it
    answers as a new ring bound there, unless it was closed before and so answers as if nothing had been
    asked. -/
theorem run_eq_queue_run (storage : ByteArray) (start : Nat) (ops : List Op) :
    (run ops (onStorage storage start)).1 = (Queue.run ops (Queue.fresh storage.size start)).1 ∧
      ∀ (again : Nat) (rest : List Op),
        (run rest ((run ops (onStorage storage start)).2.reset again).ring).1 =
          if (run ops (onStorage storage start)).2.isClosed then (run rest (run ops (onStorage storage start)).2).1
          else (run rest (bound storage.size again)).1 := by
  obtain ⟨hanswers, hlast⟩ := (Shows.fresh storage start).run ops
  refine ⟨hanswers, fun again rest => ?_⟩
  cases hopen : (run ops (onStorage storage start)).2.isClosed with
  | true => rw [reset_of_closed hopen, if_pos rfl]
  | false =>
    have hnew := ((Shows.fresh (Bytes.zeros storage.size) again).run rest).1
    have hreset := ((hlast.reset again hopen).run rest).1
    rw [Bytes.size_zeros] at hnew
    rw [Queue.capacity_run] at hreset
    rw [reset_of_open hopen, if_neg (by simp)]
    exact hreset.trans hnew.symm

end Ring
end ReadAhead
