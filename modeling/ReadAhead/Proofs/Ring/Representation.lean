import ReadAhead.Proofs.Ring.Wakes

/-! How a ring represents what it was made to do. The operations it has carried out since it was last bound
    are its past, which tells the byte that was last written for a position without a look at the storage.
    The storage holds that byte at the distance of the position from the base, going round (`Recalls`).

    The copies of a write and of a read are given a second time, with every range of indices checked
    (`wrapIn?`, `wrapOut?`). Where a cursor is a slot of the ring no check fails and the copies are the
    unchecked ones. -/

namespace ReadAhead

/-! ### Ranges of indices -/

namespace Bytes
variable {dest data bytes : ByteArray} {start stop offset n : Nat}

/-- The bytes from index `start` up to `stop`; none if these are no indices of `bytes`. -/
def slice? (bytes : ByteArray) (start stop : Nat) : Option ByteArray :=
  if start ≤ stop ∧ stop ≤ bytes.size then some (bytes.extract start stop) else none

/-- `dest` with `data` in place of the bytes from index `start` up to `stop`; none if these are no indices
    of `dest`, or not as many as there are data. -/
def fill? (dest : ByteArray) (start stop : Nat) (data : ByteArray) : Option ByteArray :=
  if start ≤ stop ∧ stop ≤ dest.size ∧ stop = start + data.size then some (overlay dest start data) else none

theorem slice?_of_le (h : start ≤ stop) (hstop : stop ≤ bytes.size) :
    slice? bytes start stop = some (bytes.extract start stop) := if_pos ⟨h, hstop⟩

theorem fill?_of_size (hstop : stop ≤ dest.size) (hsize : stop = start + data.size) :
    fill? dest start stop data = some (overlay dest start data) := if_pos ⟨by omega, hstop, hsize⟩

theorem size_extract_of_le (h : stop ≤ bytes.size) : (bytes.extract start stop).size = stop - start := by
  rw [ByteArray.size_extract]
  omega

end Bytes

namespace Ring

/-- `wrapIn` with checked ranges. -/
def wrapIn? (store : ByteArray) (capacity offset : Nat) (data : ByteArray) : Option ByteArray := do
  let first := min (capacity - offset) data.size
  let store ← Bytes.fill? store offset (offset + first) (← Bytes.slice? data 0 first)
  if first < data.size then Bytes.fill? store 0 (data.size - first) (← Bytes.slice? data first data.size)
  else some store

/-- The buffer of a reader with the bytes of `wrapOut` at its beginning, copied with checked ranges. -/
def wrapOut? (store : ByteArray) (capacity offset : Nat) (buffer : ByteArray) (n : Nat) : Option ByteArray := do
  let first := min (capacity - offset) n
  let buffer ← Bytes.fill? buffer 0 first (← Bytes.slice? store offset (offset + first))
  if first < n then Bytes.fill? buffer first n (← Bytes.slice? store 0 (n - first)) else some buffer

section Ranges
variable {store data buffer : ByteArray} {capacity offset n : Nat}

theorem wrapIn?_eq (ho : offset ≤ capacity) (hs : store.size = capacity) (hd : data.size ≤ capacity) :
    wrapIn? store capacity offset data = some (wrapIn store capacity offset data) := by
  unfold wrapIn? wrapIn
  generalize hfirst : min (capacity - offset) data.size = first
  have hhead : (data.extract 0 first).size = first := by
    rw [Bytes.size_extract_of_le (by omega)]
    omega
  have hlaid : (Bytes.overlay store offset (data.extract 0 first)).size = capacity := by
    rw [Bytes.size_overlay (by omega), hs]
  simp only [Bytes.slice?_of_le (Nat.zero_le first) (by omega : first ≤ data.size), Option.bind_eq_bind, Option.bind_some]
  rw [Bytes.fill?_of_size (by omega) (by omega), Option.bind_some]
  split
  · have htail : (data.extract first data.size).size = data.size - first := Bytes.size_extract_of_le (Nat.le_refl _)
    rw [Bytes.slice?_of_le (by omega) (Nat.le_refl _), Option.bind_some, Bytes.fill?_of_size (by omega) (by omega)]
  · rfl

theorem wrapOut?_eq (ho : offset ≤ capacity) (hs : store.size = capacity) (hn : n ≤ capacity) (hb : n ≤ buffer.size) :
    wrapOut? store capacity offset buffer n = some (Bytes.overlay buffer 0 (wrapOut store capacity offset n)) := by
  unfold wrapOut? wrapOut
  generalize hfirst : min (capacity - offset) n = first
  have hhead : (store.extract offset (offset + first)).size = first := by
    rw [Bytes.size_extract_of_le (by omega)]
    omega
  have hlaid : (Bytes.overlay buffer 0 (store.extract offset (offset + first))).size = buffer.size :=
    Bytes.size_overlay (by omega)
  simp only [Bytes.slice?_of_le (by omega : offset ≤ offset + first) (by omega : offset + first ≤ store.size),
    Option.bind_eq_bind, Option.bind_some]
  rw [Bytes.fill?_of_size (by omega) (by omega), Option.bind_some]
  split
  · have htail : (store.extract 0 (n - first)).size = n - first := by
      rw [Bytes.size_extract_of_le (by omega)]
      omega
    have hjoin : Bytes.overlay (Bytes.overlay buffer 0 (store.extract offset (offset + first)))
        (0 + (store.extract offset (offset + first)).size) (store.extract 0 (n - first)) = _ :=
      Bytes.overlay_append (by omega)
    rw [Nat.zero_add, hhead] at hjoin
    rw [Bytes.slice?_of_le (Nat.zero_le _) (by omega), Option.bind_some, Bytes.fill?_of_size (by omega) (by omega), hjoin]
  · rfl

end Ranges

variable {r : Ring} {data buffer : ByteArray} {position : Nat}

/-- `append` with checked ranges. -/
def append? (r : Ring) (data : ByteArray) : Option (After (Except RingError Nat)) :=
  match r.refusal? data.size with
  | some cause => some ⟨r, false, .error cause⟩
  | none =>
    if data.size = 0 then some ⟨r, false, .ok 0⟩
    else do
      let store ← wrapIn? (← r.storage) r.capacity r.write.offset data
      let write := r.write.advance data.size r.capacity
      some ⟨{ r with storage := some store, write, len := r.len + data.size }, true, .ok data.size⟩

/-- `readAt` into the buffer of the reader, with checked ranges: the answer is how many bytes were copied,
    and the buffer is given back beside it. -/
def readInto? (r : Ring) (buffer : ByteArray) (position : Nat) : Option (After (Except RingError Nat) × ByteArray) :=
  match r.storage with
  | none => some (⟨r, false, .error .closed⟩, buffer)
  | some store =>
    if r.len = 0 then some (⟨r, false, .error .empty⟩, buffer)
    else match r.slot? position with
      | none => some (⟨r, false, .error (.notResident position)⟩, buffer)
      | some slot => do
        let n := min buffer.size (slot.distanceTo r.write r.capacity)
        let filled ← wrapOut? store r.capacity slot.offset buffer n
        let read := slot.advance n r.capacity
        some (⟨{ r with read, len := read.distanceTo r.write r.capacity }, true, .ok n⟩, filled)

/-- The buffer of a reader with what was read at its beginning. -/
def filled (buffer : ByteArray) : Except RingError ByteArray → ByteArray
  | .ok bytes => Bytes.overlay buffer 0 bytes
  | .error _ => buffer

/-- No range of indices that a write uses lies outside. -/
theorem append?_eq (h : Sound r) (data : ByteArray) : r.append? data = some (r.append data) := by
  unfold append? append
  cases hr : r.refusal? data.size with
  | some cause => rfl
  | none =>
    by_cases hz : data.size = 0
    · simp only [if_pos hz]
    · obtain ⟨hopen, hroom⟩ := (refusal?_eq_none h).mp hr
      obtain ⟨store, hs⟩ := isClosed_eq_false_iff.mp hopen
      have hoffset := h.write.offset_lt (by omega)
      have hcopy := wrapIn?_eq (Nat.le_of_lt hoffset) (h.storage store hs) (by omega : data.size ≤ r.capacity)
      simp only [if_neg hz, hs, Option.bind_eq_bind, Option.bind_some, hcopy]
      simp [put, hs]

/-- No range of indices that a read uses lies outside. -/
theorem readInto?_eq (h : Sound r) (buffer : ByteArray) (position : Nat) :
    r.readInto? buffer position =
      some (⟨(r.readAt buffer.size position).ring, (r.readAt buffer.size position).woke,
        (r.readAt buffer.size position).answer.map ByteArray.size⟩, filled buffer (r.readAt buffer.size position).answer) := by
  unfold readInto? readAt
  cases hs : r.storage with
  | none => rfl
  | some store =>
    by_cases he : r.len = 0
    · simp only [if_pos he]
      rfl
    · cases hslot : r.slot? position with
      | none =>
        simp only [if_neg he]
        rfl
      | some slot =>
        obtain ⟨hopen, hoffset, hlinear, hlow, hhigh⟩ := slot?_eq_some h hslot
        have hwindow := writePosition_eq h
        have hroom := h.room
        have hdist : slot.distanceTo r.write r.capacity = r.writePosition - position := by
          unfold Cursor.distanceTo writePosition
          omega
        generalize hn : min buffer.size (slot.distanceTo r.write r.capacity) = n
        have hcopy : wrapOut? store r.capacity slot.offset buffer n =
            some (Bytes.overlay buffer 0 (wrapOut store r.capacity slot.offset n)) :=
          wrapOut?_eq (Nat.le_of_lt hoffset) (h.storage store hs) (by omega) (by omega)
        have hsize := size_wrapOut hoffset (h.storage store hs) (by omega : n ≤ r.capacity)
        simp only [if_neg he, hn, hcopy, Option.bind_eq_bind, Option.bind_some, Except.map, hsize, filled]

/-! ### The past of a ring -/

/-- What an operation makes of the past of a ring, the last operation first, each with the write position it
    was carried out at. One that is turned away does not count, and one that binds the ring anew forgets the
    past. -/
def noted (r : Ring) (op : Op) (past : List (Nat × Op)) : List (Nat × Op) :=
  if r.refuses op then past
  else match op with
    | .reset _ => []
    | op => (r.writePosition, op) :: past

/-- The past of a ring after operations, where it was `past` before. -/
def pastOf : List Op → Ring → List (Nat × Op) → List (Nat × Op)
  | [], _, past => past
  | op :: ops, r, past => pastOf ops (r.step op).2 (noted r op past)

/-- The byte that an operation put at a position, if it is a write that reached it. -/
def byteOf? (position : Nat) : Nat × Op → Option UInt8
  | (start, .append data) => if start ≤ position then data.data[position - start]? else none
  | _ => none

/-- The byte that was last written for a position. -/
def lastWritten? (past : List (Nat × Op)) (position : Nat) : Option UInt8 := past.findSome? (byteOf? position)

/-- A write came after the producer was said to have stopped. -/
def WrittenOn (past : List (Nat × Op)) : Prop :=
  ∃ later start data earlier, past = later ++ (start, .append data) :: earlier ∧ Op.finish ∈ earlier.map Prod.snd

section Past
variable {past : List (Nat × Op)} {op : Op} {start : Nat}

theorem noted_of_refused (h : r.refuses op = true) : noted r op past = past := if_pos h

theorem lastWritten?_append :
    lastWritten? ((start, .append data) :: past) position =
      if start ≤ position ∧ position < start + data.size then data.data[position - start]?
      else lastWritten? past position := by
  rw [lastWritten?, List.findSome?_cons, byteOf?]
  by_cases hlow : start ≤ position
  · by_cases hhigh : position < start + data.size
    · have hin : position - start < data.data.size := by
        rw [ByteArray.size_data]
        omega
      rw [if_pos hlow, if_pos ⟨hlow, hhigh⟩, Array.getElem?_eq_getElem hin]
    · rw [if_pos hlow, if_neg (by omega), Bytes.getElem?_of_size_le (by omega)]
      rfl
  · rw [if_neg hlow, if_neg (by omega)]
    rfl

theorem lastWritten?_of_none (h : byteOf? position (start, op) = none) :
    lastWritten? ((start, op) :: past) position = lastWritten? past position := by
  rw [lastWritten?, List.findSome?_cons, h]
  rfl

theorem WrittenOn.cons (h : WrittenOn past) (entry : Nat × Op) : WrittenOn (entry :: past) := by
  obtain ⟨later, start, data, earlier, rfl, hfinish⟩ := h
  exact ⟨entry :: later, start, data, earlier, rfl, hfinish⟩

/-- The past of a ring accounts for its bytes and for its mark. -/
structure Recalls (r : Ring) (past : List (Nat × Op)) : Prop where
  sound : Sound r
  byte : r.isClosed = false → ∀ position, r.start ≤ position → position < r.writePosition →
    ∃ byte, lastWritten? past position = some byte ∧ r.byte? position = some byte
  stop : ∀ stop, r.stop = some stop →
    Op.finish ∈ past.map Prod.snd ∧ (¬WrittenOn past → stop = r.writePosition)

theorem recalls_fresh (storage : ByteArray) (start : Nat) : Recalls (onStorage storage start) [] where
  sound := sound_onStorage storage start
  byte := fun _ position hlow hhigh => by
    simp only [onStorage, Ring.start, writePosition, Cursor.linear_zero] at hlow hhigh
    omega
  stop := nofun

namespace Recalls
variable (h : Recalls r past)
include h

/-- An operation that writes nothing leaves to the past what it was. -/
theorem cons {left : Ring} (hop : ∀ position, byteOf? position (start, op) = none) (hsound : Sound left)
    (hbyte : left.isClosed = false →
      r.isClosed = false ∧ r.start ≤ left.start ∧ ∀ position, left.byte? position = r.byte? position)
    (hwrite : left.writePosition = r.writePosition)
    (hstop : left.stop = r.stop ∨ (op = .finish ∧ left.stop = some r.writePosition)) :
    Recalls left ((start, op) :: past) where
  sound := hsound
  byte := by
    intro hopen position hlow hhigh
    obtain ⟨hwas, hstart, hsame⟩ := hbyte hopen
    obtain ⟨byte, hlast, hheld⟩ := h.byte hwas position (by omega) (by omega)
    exact ⟨byte, (lastWritten?_of_none (hop position)).trans hlast, (hsame position).trans hheld⟩
  stop := by
    intro stop hmark
    rw [hwrite]
    rcases hstop with hkept | ⟨rfl, hnew⟩
    · obtain ⟨hfinish, hends⟩ := h.stop stop (hkept ▸ hmark)
      exact ⟨List.mem_cons_of_mem _ hfinish, fun hnot => hends fun hon => hnot (hon.cons _)⟩
    · rw [hnew] at hmark
      exact ⟨List.mem_cons_self, fun _ => (Option.some.inj hmark).symm⟩

/-- A write goes behind all that was written before. -/
theorem append (hr : r.refusal? data.size = none) :
    Recalls (r.append data).ring ((r.writePosition, .append data) :: past) := by
  obtain ⟨hopen, hroom⟩ := (refusal?_eq_none h.sound).mp hr
  have hon : Op.finish ∈ past.map Prod.snd → WrittenOn ((r.writePosition, .append data) :: past) :=
    fun hfinish => ⟨[], _, _, past, rfl, hfinish⟩
  rcases append_cases r data with ⟨cause, hc, -⟩ | ⟨-, hz, he⟩ | ⟨-, hpos, he⟩
  · rw [hr] at hc
    cases hc
  · rw [he]
    refine ⟨h.sound, fun _ position hlow hhigh => ?_, fun stop hmark => ?_⟩
    · rw [lastWritten?_append, if_neg (by omega)]
      exact h.byte hopen position hlow hhigh
    · obtain ⟨hfinish, -⟩ := h.stop stop hmark
      exact ⟨List.mem_cons_of_mem _ hfinish, fun hnot => absurd (hon hfinish) hnot⟩
  · rw [he]
    refine ⟨sound_put h.sound hroom, fun _ position hlow hhigh => ?_, fun stop hmark => ?_⟩
    · rw [start_put] at hlow
      rw [writePosition_put hroom] at hhigh
      rw [lastWritten?_append]
      by_cases hnew : r.writePosition ≤ position
      · obtain ⟨i, rfl⟩ := Nat.exists_eq_add_of_le hnew
        have hin : i < data.data.size := by
          rw [ByteArray.size_data]
          omega
        rw [if_pos (by omega), Nat.add_sub_cancel_left, byte?_put_new h.sound hroom hopen (by omega),
          Array.getElem?_eq_getElem hin]
        exact ⟨_, rfl, rfl⟩
      · rw [if_neg (by omega), byte?_put_old h.sound hroom hlow (by omega)]
        exact h.byte hopen position hlow (by omega)
    · obtain ⟨hfinish, -⟩ := h.stop stop hmark
      exact ⟨List.mem_cons_of_mem _ hfinish, fun hnot => absurd (hon hfinish) hnot⟩

/-- An operation leaves a ring whose past accounts for it. -/
theorem step (op : Op) : Recalls (r.step op).2 (noted r op past) := by
  cases hr : r.refuses op with
  | true =>
    rw [noted_of_refused hr, (same_of_refuses hr).2]
    exact h
  | false =>
    unfold noted
    rw [if_neg (by simp [hr])]
    cases op with
    | append data =>
      refine h.append ?_
      rcases append_cases r data with ⟨cause, hc, he⟩ | ⟨hc, -⟩ | ⟨hc, -⟩
      · simp [refuses, Ring.step, he, Answer.isError] at hr
      · exact hc
      · exact hc
    | readAt n position =>
      cases hres : r.isResident position with
      | false => simp [refuses, Ring.step, readAt_of_not_resident hres, Answer.isError, Except.map] at hr
      | true =>
        obtain ⟨bytes, left, he, htaken⟩ := readAt_of_resident h.sound hres n
        obtain ⟨hopen, hlow, -⟩ := (isResident_iff h.sound).mp hres
        have hstart := htaken.start
        simp only [Ring.step, he]
        exact h.cons (fun _ => rfl) htaken.sound (fun _ => ⟨hopen, by omega, htaken.byte?_eq⟩) htaken.writePosition
          (Or.inl htaken.stop)
    | reset start =>
      have hopen : r.isClosed = false := by
        cases hopen : r.isClosed with
        | true => simp [refuses, Ring.step, reset_of_closed hopen, Answer.isError] at hr
        | false => rfl
      simp only [Ring.step, reset_of_open hopen]
      refine ⟨sound_emptied h.sound start, fun _ position hlow hhigh => ?_, fun _ hmark => by cases hmark⟩
      rw [start_emptied] at hlow
      rw [writePosition_emptied] at hhigh
      omega
    | finish =>
      have hsound := sound_finish h.sound
      simp only [Ring.step, finish_of_open hr] at hsound ⊢
      exact h.cons (fun _ => rfl) hsound (fun _ => ⟨hr, Nat.le_refl _, fun _ => rfl⟩) rfl (Or.inr ⟨rfl, rfl⟩)
    | close =>
      have hsound := sound_close h.sound
      simp only [Ring.step, close_of_open hr] at hsound ⊢
      exact h.cons (fun _ => rfl) hsound (fun hopen => by cases hopen) rfl (Or.inl rfl)
    | isResident _ | availability _ | look =>
      exact h.cons (fun _ => rfl) h.sound (fun hopen => ⟨hopen, Nat.le_refl _, fun _ => rfl⟩) rfl (Or.inl rfl)

theorem run (ops : List Op) : Recalls (Ring.run ops r).2 (pastOf ops r past) := by
  induction ops generalizing r past with
  | nil => exact h
  | cons op ops ih => exact ih (h.step op)

end Recalls
end Past

/-! ### What holds of every ring -/

/-- The parts of a ring fit each other, its copies stay inside, and its storage holds what its past put
    there. -/
structure Represents (r : Ring) (past : List (Nat × Op)) : Prop where
  offset : 0 < r.capacity → r.read.offset < r.capacity ∧ r.write.offset < r.capacity
  noRoom : r.capacity = 0 → r.read = .zero ∧ r.write = .zero ∧ r.len = 0
  order : r.read.linear r.capacity ≤ r.write.linear r.capacity
  len : r.len = r.write.linear r.capacity - r.read.linear r.capacity
  room : r.len ≤ r.capacity
  storage : ∀ store, r.storage = some store → store.size = r.capacity
  writes : ∀ data, r.append? data = some (r.append data)
  reads : ∀ buffer position, r.readInto? buffer position =
    some (⟨(r.readAt buffer.size position).ring, (r.readAt buffer.size position).woke,
      (r.readAt buffer.size position).answer.map ByteArray.size⟩, filled buffer (r.readAt buffer.size position).answer)
  byte : ∀ store, r.storage = some store → ∀ position, r.base + r.read.linear r.capacity ≤ position →
    position < r.base + r.write.linear r.capacity →
    ∃ byte, lastWritten? past position = some byte ∧ store.data[(position - r.base) % r.capacity]? = some byte
  stop : ¬WrittenOn past → ∀ stop, r.stop = some stop → stop = r.base + r.write.linear r.capacity

theorem Recalls.represents {past : List (Nat × Op)} (h : Recalls r past) : Represents r past where
  offset := fun hc => ⟨h.sound.read.offset_lt hc, h.sound.write.offset_lt hc⟩
  noRoom := fun hc => by
    have hroom := h.sound.room
    refine ⟨?_, ?_, by omega⟩
    · rcases h.sound.read with hlt | ⟨-, hzero⟩
      · omega
      · exact hzero
    · rcases h.sound.write with hlt | ⟨-, hzero⟩
      · omega
      · exact hzero
  order := by
    have hlen := h.sound.len
    omega
  len := by
    have hlen := h.sound.len
    omega
  room := h.sound.room
  storage := h.sound.storage
  writes := append?_eq h.sound
  reads := readInto?_eq h.sound
  byte := fun store hs position hlow hhigh => by
    obtain ⟨byte, hlast, hheld⟩ := h.byte (isClosed_eq_false_iff.mpr ⟨store, hs⟩) position hlow hhigh
    rw [byte?, hs, Option.bind_some] at hheld
    exact ⟨byte, hlast, hheld⟩
  stop := fun hon stop hmark => (h.stop stop hmark).2 hon

/-- After whatever operations, a ring represents its past. -/
theorem represents_its_past (storage : ByteArray) (start : Nat) (ops : List Op) :
    (run ops (onStorage storage start)).2.capacity = storage.size ∧
      Represents (run ops (onStorage storage start)).2 (pastOf ops (onStorage storage start) []) := by
  have hshows := ((Shows.fresh storage start).run ops).2
  refine ⟨?_, ((recalls_fresh storage start).run ops).represents⟩
  rw [← hshows.capacity, Queue.capacity_run]
  rfl

/-- What was written last is told across the end of the storage, and forgotten with a reset. -/
example :
    let r := onStorage ⟨#[0, 0]⟩ 5
    lastWritten? (pastOf [.append ⟨#[1, 2]⟩, .readAt 1 5, .append ⟨#[3]⟩] r []) 7 = some 3 ∧
      lastWritten? (pastOf [.append ⟨#[1, 2]⟩, .reset 6] r []) 6 = none := by decide

end Ring
end ReadAhead
