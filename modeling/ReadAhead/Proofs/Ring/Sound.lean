import ReadAhead.Proofs.Cursor
import ReadAhead.Proofs.Ring.Storage
import ReadAhead.Ring.Lemmas

/-! What a ring keeps. The cursors are slots of the ring, the bytes between them are as many as it says, and
    an open ring has a storage of its capacity (`Sound`); every operation keeps this. The window of a ring
    runs from `start` to `writePosition`, and the storage holds one byte for each of its positions
    (`byte?`). Each operation is told by what it does to the window, to these bytes and to the mark left by
    a producer that stopped; nothing else needs to unfold it. -/

namespace ReadAhead
namespace Ring
variable {r : Ring} {data store : ByteArray} {n p position start : Nat}

/-- The parts of a ring fit each other. -/
structure Sound (r : Ring) : Prop where
  read : r.read.Fits r.capacity
  write : r.write.Fits r.capacity
  len : r.read.linear r.capacity + r.len = r.write.linear r.capacity
  room : r.len ≤ r.capacity
  storage : ∀ store, r.storage = some store → store.size = r.capacity

/-- The byte that the storage holds for a position of the window. -/
def byte? (r : Ring) (position : Nat) : Option UInt8 :=
  r.storage.bind fun store => store.data[(position - r.base) % r.capacity]?

/-- The ring is not marked finished beyond what has been written. -/
def EndsWithin (r : Ring) : Prop := ∀ stop, r.stop = some stop → stop ≤ r.writePosition

theorem sound_onStorage (store : ByteArray) (start : Nat) : Sound (onStorage store start) where
  read := Cursor.fits_zero _
  write := Cursor.fits_zero _
  len := by simp [onStorage]
  room := Nat.zero_le _
  storage := fun _ h => by rw [← Option.some.inj h]; rfl

/-! ### The window -/

theorem writePosition_eq (h : Sound r) : r.writePosition = r.start + r.len := by
  have := h.len
  unfold writePosition start
  omega

theorem writePosition_le (h : Sound r) : r.writePosition ≤ r.start + r.capacity := by
  have := h.room
  rw [writePosition_eq h]
  omega

theorem isClosed_eq_false_iff : r.isClosed = false ↔ ∃ store, r.storage = some store := by
  simp [isClosed, Option.isSome_iff_exists]

/-- A position is readable if it lies in the window of an open ring, and then its slot is as far from the
    base as it is. -/
theorem slot?_eq_some (h : Sound r) {slot : Cursor} (hs : r.slot? position = some slot) :
    r.isClosed = false ∧ slot.offset < r.capacity ∧ r.base + slot.linear r.capacity = position ∧
      r.start ≤ position ∧ position < r.writePosition := by
  unfold slot? at hs
  split at hs
  · cases hs
  · rename_i hopen
    obtain ⟨hloc, hin⟩ := Option.filter_eq_some_iff.mp hs
    obtain ⟨hoff, hlin⟩ := Cursor.locate_eq_some hloc
    have hin := (Cursor.within_iff hoff (h.read.offset_lt (by omega)) (h.write.offset_lt (by omega))).mp hin
    refine ⟨by simpa using hopen, hoff, hlin, ?_, ?_⟩
    · unfold start
      omega
    · unfold writePosition
      omega

theorem isResident_iff (h : Sound r) :
    r.isResident position = true ↔ r.isClosed = false ∧ r.start ≤ position ∧ position < r.writePosition := by
  constructor
  · intro hres
    obtain ⟨slot, hslot⟩ := Option.isSome_iff_exists.mp hres
    obtain ⟨hopen, -, -, hlow, hhigh⟩ := slot?_eq_some h hslot
    exact ⟨hopen, hlow, hhigh⟩
  · rintro ⟨hopen, hlow, hhigh⟩
    have hcap : r.capacity ≠ 0 := fun hc => by
      have hle := writePosition_le h
      omega
    have hbase : r.base ≤ position := by
      unfold start at hlow
      omega
    cases hloc : Cursor.locate position r.base r.capacity with
    | none =>
      rcases Cursor.locate_eq_none_iff.mp hloc with hc | hc <;> omega
    | some slot =>
      obtain ⟨hoff, hlin⟩ := Cursor.locate_eq_some hloc
      have hin : slot.within r.read r.write = true := by
        rw [Cursor.within_iff hoff (h.read.offset_lt (by omega)) (h.write.offset_lt (by omega))]
        unfold start writePosition at *
        omega
      simp [isResident, slot?, hopen, hloc, hin, Option.filter]

theorem isResident_eq_decide (h : Sound r) (position : Nat) :
    r.isResident position =
      (!r.isClosed && decide (r.start ≤ position) && decide (position < r.writePosition)) := by
  rw [Bool.eq_iff_iff, isResident_iff h]
  simp [and_assoc]

theorem availability_of_open (hopen : r.isClosed = false) :
    r.availability position =
      if r.isResident position then .ok .resident
      else match r.stop with
        | some stop => .ok (if stop ≤ position then .ended stop else .pending)
        | none => .ok .pending := by
  unfold availability
  rw [hopen]
  rfl

theorem availability_of_resident (h : Sound r) (hres : r.isResident position = true) :
    r.availability position = .ok .resident := by
  obtain ⟨hopen, -⟩ := (isResident_iff h).mp hres
  rw [availability_of_open hopen, if_pos hres]

/-- A position is past the end only where the ring was marked finished before it. -/
theorem stop_of_ended {stop : Nat} (h : r.availability position = .ok (.ended stop)) :
    r.isClosed = false ∧ r.isResident position = false ∧ r.stop = some stop ∧ stop ≤ position := by
  cases hopen : r.isClosed with
  | true =>
    have hshut : r.availability position = .error .closed := by simp [availability, hopen]
    cases hshut.symm.trans h
  | false =>
    rw [availability_of_open hopen] at h
    split at h
    · cases h
    · rename_i hres
      split at h
      · rename_i stop' hstop
        split at h
        · rename_i hle
          cases h
          exact ⟨rfl, by simpa using hres, hstop, hle⟩
        · cases h
      · cases h

theorem free_of_open (hopen : r.isClosed = false) : r.free = r.capacity - r.len := by simp [free, hopen]

/-! ### Appending -/

section Put
variable (h : Sound r) (hroom : r.len + data.size ≤ r.capacity)

@[simp] theorem capacity_put : (r.put data).capacity = r.capacity := rfl
@[simp] theorem base_put : (r.put data).base = r.base := rfl
@[simp] theorem start_put : (r.put data).start = r.start := rfl
@[simp] theorem len_put : (r.put data).len = r.len + data.size := rfl

theorem storage_put (hs : r.storage = some store) :
    (r.put data).storage = some (wrapIn store r.capacity r.write.offset data) := by
  show r.storage.map _ = _
  rw [hs]
  rfl

include hroom in
theorem linear_write_put :
    (r.put data).write.linear r.capacity = r.write.linear r.capacity + data.size := by
  rcases Nat.eq_zero_or_pos r.capacity with hc | hc
  · have : data.size = 0 := by omega
    simp [put, Cursor.advance, hc, this]
  · exact Cursor.linear_advance hc _ _

include hroom in
theorem writePosition_put : (r.put data).writePosition = r.writePosition + data.size := by
  have := linear_write_put hroom
  unfold writePosition
  simp only [capacity_put, base_put, this]
  omega

include hroom in
theorem endsWithin_put (hends : r.EndsWithin) : (r.put data).EndsWithin := by
  intro stop hstop
  rw [writePosition_put hroom]
  exact Nat.le_add_right_of_le (hends stop hstop)

include h hroom in
theorem sound_put : Sound (r.put data) where
  read := h.read
  write := Cursor.fits_advance h.write _
  len := by
    have hl := h.len
    have hw := linear_write_put hroom
    simp only [len_put, capacity_put, hw]
    show r.read.linear r.capacity + _ = _
    omega
  room := hroom
  storage := by
    intro store hs
    obtain ⟨old, hold, rfl⟩ := Option.map_eq_some_iff.mp hs
    have hsize := h.storage old hold
    rcases Nat.eq_zero_or_pos r.capacity with hc | hc
    · have hd : data.size = 0 := by omega
      rw [wrapIn_of_fits (by rcases h.write with hw | ⟨-, hw⟩ <;> simp_all [Cursor.zero]),
        Bytes.size_overlay (by rcases h.write with hw | ⟨-, hw⟩ <;> simp_all [Cursor.zero]), hsize]
      rfl
    · exact size_wrapIn (h.write.offset_lt hc) hsize (by omega)

/-- A position of the window or right behind it lies as far behind the offset of the write cursor as behind
    its position, going round. -/
theorem index_eq (h : Sound r) (i : Nat) :
    (r.writePosition + i - r.base) % r.capacity = (r.write.offset + i) % r.capacity := by
  have hdist : r.writePosition + i - r.base = r.write.linear r.capacity + i := by
    unfold writePosition
    omega
  rw [hdist, h.write.linear_add_mod]

include h hroom in
/-- The bytes put in are those of the positions behind the window. -/
theorem byte?_put_new (hopen : r.isClosed = false) {i : Nat} (hi : i < data.size) :
    (r.put data).byte? (r.writePosition + i) = data.data[i]? := by
  obtain ⟨store, hs⟩ := isClosed_eq_false_iff.mp hopen
  have hc : 0 < r.capacity := by omega
  rw [byte?, storage_put hs, Option.bind_some, capacity_put, base_put, index_eq h]
  exact getElem?_wrapIn_inside (h.write.offset_lt hc) (h.storage store hs) (by omega) hi

include h hroom in
theorem byte?_put_old (hlow : r.start ≤ p) (hhigh : p < r.writePosition) : (r.put data).byte? p = r.byte? p := by
  have hwindow := writePosition_eq h
  have hc : 0 < r.capacity := by omega
  cases hs : r.storage with
  | none =>
    have hput : (r.put data).storage = none := by
      show r.storage.map _ = _
      rw [hs]
      rfl
    rw [byte?, byte?, hput, hs]
    rfl
  | some store =>
    -- Seen from the write cursor, the window lies one round ahead.
    obtain ⟨i, hi⟩ : ∃ i, p + r.capacity = r.writePosition + i := ⟨p + r.capacity - r.writePosition, by omega⟩
    have hbase : r.base ≤ p := by
      unfold Ring.start at hlow
      omega
    have hround : (p - r.base) % r.capacity = (r.write.offset + i) % r.capacity := by
      rw [← index_eq h, ← hi, ← Nat.add_mod_right (p - r.base)]
      congr 1
      omega
    rw [byte?, byte?, storage_put hs, hs, Option.bind_some, Option.bind_some, capacity_put, base_put, hround]
    exact getElem?_wrapIn_outside (h.write.offset_lt hc) (h.storage store hs) (by omega) (by omega)

end Put

/-- A write is refused, or all of it is appended. -/
theorem append_cases (r : Ring) (data : ByteArray) :
    (∃ cause, r.refusal? data.size = some cause ∧ r.append data = ⟨r, false, .error cause⟩) ∨
      (r.refusal? data.size = none ∧ data.size = 0 ∧ r.append data = ⟨r, false, .ok 0⟩) ∨
      (r.refusal? data.size = none ∧ 0 < data.size ∧ r.append data = ⟨r.put data, true, .ok data.size⟩) := by
  unfold append
  split
  · rename_i cause hr
    exact Or.inl ⟨cause, hr, rfl⟩
  · rename_i hr
    split
    · rename_i hz
      exact Or.inr (Or.inl ⟨hr, hz, rfl⟩)
    · exact Or.inr (Or.inr ⟨hr, by omega, rfl⟩)

theorem refusal?_eq_none (h : Sound r) : r.refusal? n = none ↔ r.isClosed = false ∧ r.len + n ≤ r.capacity := by
  have := h.room
  unfold refusal?
  split
  · simp_all
  · split
    · simp_all
      omega
    · split <;> simp_all <;> omega

theorem append_of_room (h : Sound r) (hopen : r.isClosed = false) (hpos : 0 < data.size)
    (hroom : r.len + data.size ≤ r.capacity) : r.append data = ⟨r.put data, true, .ok data.size⟩ := by
  have hr := (refusal?_eq_none h).mpr ⟨hopen, hroom⟩
  rcases append_cases r data with ⟨cause, hc, -⟩ | ⟨-, hz, -⟩ | ⟨-, -, he⟩
  · rw [hr] at hc
    cases hc
  · omega
  · exact he

/-! ### Reading -/

/-- What a read of `n` bytes at `position` takes from a ring, and what it leaves. -/
structure Taken (r : Ring) (n position : Nat) (bytes : ByteArray) (left : Ring) : Prop where
  size : bytes.size = min n (r.writePosition - position)
  byte : ∀ i < bytes.size, bytes.data[i]? = r.byte? (position + i)
  start : left.start = position + bytes.size
  writePosition : left.writePosition = r.writePosition
  capacity : left.capacity = r.capacity
  base : left.base = r.base
  storage : left.storage = r.storage
  stop : left.stop = r.stop
  sound : Sound left

theorem Taken.byte?_eq {bytes : ByteArray} {left : Ring} (h : Taken r n position bytes left) (p : Nat) :
    left.byte? p = r.byte? p := by
  unfold byte?
  rw [h.storage, h.base, h.capacity]

theorem Taken.isClosed_eq {bytes : ByteArray} {left : Ring} (h : Taken r n position bytes left) :
    left.isClosed = r.isClosed := by
  unfold isClosed
  rw [h.storage]

/-- Outside the window nothing is read and nothing changes. -/
theorem readAt_of_not_resident (h : r.isResident position = false) (n : Nat) :
    r.readAt n position = ⟨r, false, .error
      (if r.isClosed then .closed else if r.len = 0 then .empty else .notResident position)⟩ := by
  have hslot : r.slot? position = none := by simpa [isResident] using h
  unfold readAt
  cases hs : r.storage with
  | none => simp [isClosed, hs]
  | some store =>
    simp only [hslot]
    split <;> simp_all [isClosed]

/-- Inside the window a read takes the bytes from there on, and gives up all before them. -/
theorem readAt_of_resident (h : Sound r) (hres : r.isResident position = true) (n : Nat) :
    ∃ bytes left, r.readAt n position = ⟨left, true, .ok bytes⟩ ∧ Taken r n position bytes left := by
  obtain ⟨slot, hslot⟩ := Option.isSome_iff_exists.mp hres
  obtain ⟨hopen, hoff, hlin, hlow, hhigh⟩ := slot?_eq_some h hslot
  obtain ⟨store, hs⟩ := isClosed_eq_false_iff.mp hopen
  have hwindow := writePosition_eq h
  have hroom := h.room
  have hlen : r.len ≠ 0 := by omega
  have hdist : slot.distanceTo r.write r.capacity = r.writePosition - position := by
    unfold Cursor.distanceTo writePosition
    omega
  have hmove := Cursor.linear_advance (by omega : 0 < r.capacity) slot (min n (r.writePosition - position))
  have hleft : r.writePosition - position ≤ r.capacity := by omega
  let read := slot.advance (min n (r.writePosition - position)) r.capacity
  refine ⟨wrapOut store r.capacity slot.offset (min n (r.writePosition - position)),
    { r with read, len := read.distanceTo r.write r.capacity }, ?_, ?_⟩
  · unfold readAt
    rw [hs]
    simp only [hlen, if_false, hslot, hdist]
    rfl
  · have hsize : (wrapOut store r.capacity slot.offset (min n (r.writePosition - position))).size =
        min n (r.writePosition - position) := size_wrapOut hoff (h.storage store hs) (by omega)
    refine ⟨hsize, fun i hi => ?_, ?_, rfl, rfl, rfl, rfl, rfl, ?_⟩
    · rw [hsize] at hi
      have hback : position + i - r.base = slot.linear r.capacity + i := by omega
      rw [getElem?_wrapOut hoff (h.storage store hs) (by omega) hi, byte?, hs, Option.bind_some, hback,
        Cursor.Fits.linear_add_mod (Or.inl hoff)]
    · rw [hsize]
      show r.base + (slot.advance _ _).linear r.capacity = _
      omega
    · have hwrite : r.writePosition = r.base + r.write.linear r.capacity := rfl
      have hread : read.linear r.capacity = slot.linear r.capacity + min n (r.writePosition - position) := hmove
      refine ⟨Cursor.fits_advance (Or.inl hoff) _, h.write, ?_, ?_, h.storage⟩
      · simp only [Cursor.distanceTo]
        omega
      · simp only [Cursor.distanceTo]
        omega

/-! ### Emptying, finishing and closing -/

/-- The ring emptied and bound at `start`. -/
def emptied (r : Ring) (start : Nat) : Ring :=
  { r with base := start, read := .zero, write := .zero, len := 0, stop := none }

theorem reset_of_open (hopen : r.isClosed = false) (start : Nat) : r.reset start = ⟨r.emptied start, true, .ok ()⟩ := by
  simp [reset, hopen, emptied]

theorem reset_of_closed (hclosed : r.isClosed = true) (start : Nat) : r.reset start = ⟨r, false, .error .closed⟩ := by
  simp [reset, hclosed]

@[simp] theorem start_emptied : (r.emptied start).start = start := by simp [emptied, Ring.start]
@[simp] theorem writePosition_emptied : (r.emptied start).writePosition = start := by simp [emptied, writePosition]
@[simp] theorem capacity_emptied : (r.emptied start).capacity = r.capacity := rfl
@[simp] theorem isClosed_emptied : (r.emptied start).isClosed = r.isClosed := rfl

theorem sound_emptied (h : Sound r) (start : Nat) : Sound (r.emptied start) where
  read := Cursor.fits_zero _
  write := Cursor.fits_zero _
  len := by simp [emptied]
  room := Nat.zero_le _
  storage := h.storage

theorem finish_of_open (hopen : r.isClosed = false) :
    r.finish = ⟨{ r with stop := some r.writePosition }, true, ()⟩ := by
  simp [finish, hopen]

theorem finish_of_closed (hclosed : r.isClosed = true) : r.finish = ⟨r, false, ()⟩ := by
  simp [finish, hclosed]

theorem close_of_open (hopen : r.isClosed = false) : r.close = ⟨{ r with storage := none }, true, ()⟩ := by
  simp [close, hopen]

theorem close_of_closed (hclosed : r.isClosed = true) : r.close = ⟨r, false, ()⟩ := by
  simp [close, hclosed]

@[simp] theorem isClosed_close (r : Ring) : r.close.ring.isClosed = true := by
  unfold close
  split
  · assumption
  · rfl

@[simp] theorem capacity_close (r : Ring) : r.close.ring.capacity = r.capacity := by
  unfold close
  split <;> rfl

@[simp] theorem start_close (r : Ring) : r.close.ring.start = r.start := by
  unfold close
  split <;> rfl

@[simp] theorem writePosition_close (r : Ring) : r.close.ring.writePosition = r.writePosition := by
  unfold close
  split <;> rfl

@[simp] theorem len_finish (r : Ring) : r.finish.ring.len = r.len := by
  unfold finish
  split <;> rfl

@[simp] theorem writePosition_finish (r : Ring) : r.finish.ring.writePosition = r.writePosition := by
  unfold finish
  split <;> rfl

theorem free_of_closed (hclosed : r.isClosed = true) : r.free = 0 := by simp [free, hclosed]

theorem sound_finish (h : Sound r) : Sound r.finish.ring := by
  unfold finish
  split
  · exact h
  · exact ⟨h.read, h.write, h.len, h.room, h.storage⟩

theorem sound_close (h : Sound r) : Sound r.close.ring := by
  unfold close
  split
  · exact h
  · exact ⟨h.read, h.write, h.len, h.room, fun _ hs => nomatch hs⟩

theorem EndsWithin.finish (h : r.EndsWithin) : r.finish.ring.EndsWithin := by
  intro stop hstop
  rw [writePosition_finish]
  unfold Ring.finish at hstop
  split at hstop
  · exact h stop hstop
  · exact Nat.le_of_eq (Option.some.inj hstop).symm

theorem EndsWithin.close (h : r.EndsWithin) : r.close.ring.EndsWithin := by
  intro stop hstop
  rw [writePosition_close]
  unfold Ring.close at hstop
  split at hstop <;> exact h stop hstop

theorem endsWithin_emptied (r : Ring) (start : Nat) : (r.emptied start).EndsWithin := fun _ hstop => nomatch hstop

end Ring
end ReadAhead
