import ReadAhead.Proofs.Ring.Queue

/-! How the bytes that go through a ring are cut into pieces does not show. A ring whose parts fit each other
    is told by its positions and its storage (`ext_positions`): equal distances are equal cursors, pages
    included. So it is enough that two pieces leave the positions and the storage that the whole leaves. -/

namespace ReadAhead

namespace Ring
variable {r left : Ring} {a b store : ByteArray} {capacity offset k n position : Nat}

/-- Rings whose parts fit are equal if they show the same positions and hold the same. -/
theorem ext_positions (hr : Sound r) (hl : Sound left) (hcapacity : left.capacity = r.capacity)
    (hstorage : left.storage = r.storage) (hbase : left.base = r.base) (hstart : left.start = r.start)
    (hwrite : left.writePosition = r.writePosition) (hstop : left.stop = r.stop) : left = r := by
  have hlen : left.len = r.len := by
    have hr := writePosition_eq hr
    have hl := writePosition_eq hl
    omega
  have hread : left.read = r.read := by
    refine Cursor.Fits.eq_of_linear (hcapacity ▸ hl.read) hr.read ?_
    simp only [start, hbase, hcapacity] at hstart
    omega
  have hwrite : left.write = r.write := by
    refine Cursor.Fits.eq_of_linear (hcapacity ▸ hl.write) hr.write ?_
    simp only [writePosition, hbase, hcapacity] at hwrite
    omega
  cases r
  cases left
  simp_all

/-! ### Writing -/

theorem wrapIn_of_empty (ho : offset ≤ capacity) (hs : store.size = capacity) (ha : a.size = 0) :
    wrapIn store capacity offset a = store := by
  rw [wrapIn_of_fits (by omega)]
  exact Bytes.ext_getElem? fun i => Bytes.getElem?_overlay_outside (by omega) (by omega)

/-- The storage after two pieces is that after the whole, wherever it goes round. -/
theorem wrapIn_append (ho : offset < capacity) (hs : store.size = capacity) (hd : a.size + b.size ≤ capacity) :
    wrapIn (wrapIn store capacity offset a) capacity ((offset + a.size) % capacity) b =
      wrapIn store capacity offset (a ++ b) := by
  have hboth : (a ++ b).size = a.size + b.size := ByteArray.size_append
  have hafter : (offset + a.size) % capacity < capacity := Nat.mod_lt _ (by omega)
  have hfirst : (wrapIn store capacity offset a).size = capacity := size_wrapIn ho hs (by omega)
  have hsecond : (wrapIn (wrapIn store capacity offset a) capacity ((offset + a.size) % capacity) b).size = capacity :=
    size_wrapIn hafter hfirst (by omega)
  have hwhole : (wrapIn store capacity offset (a ++ b)).size = capacity := size_wrapIn ho hs (by omega)
  refine Bytes.ext_getElem? fun j => ?_
  by_cases hj : j < capacity
  · -- An index is told by how far it is from the offset, going round.
    obtain ⟨i, hi, rfl⟩ : ∃ i < capacity, (offset + i) % capacity = j := by
      by_cases hlow : offset ≤ j
      · exact ⟨j - offset, by omega, by rw [Nat.add_sub_cancel' hlow, Nat.mod_eq_of_lt hj]⟩
      · refine ⟨capacity - offset + j, by omega, ?_⟩
        rw [round_of_le (by omega) ho (by omega)]
        omega
    have hpast : ∀ m, ((offset + a.size) % capacity + m) % capacity = (offset + (a.size + m)) % capacity := fun m => by
      rw [Nat.mod_add_mod, Nat.add_assoc]
    by_cases hhead : i < a.size
    · -- Seen from the second piece, the first lies one round ahead.
      have hround : (offset + i) % capacity = ((offset + a.size) % capacity + (capacity - a.size + i)) % capacity := by
        rw [hpast, ← Nat.add_mod_right (offset + i)]
        congr 1
        omega
      rw [getElem?_wrapIn_inside ho hs (by omega) (by omega), Bytes.getElem?_append_left hhead]
      rw [hround, getElem?_wrapIn_outside hafter hfirst (by omega) (by omega), ← hround,
        getElem?_wrapIn_inside ho hs (by omega) hhead]
    · obtain ⟨m, rfl⟩ := Nat.exists_eq_add_of_le (Nat.le_of_not_lt hhead)
      by_cases hin : m < b.size
      · rw [← hpast, getElem?_wrapIn_inside hafter hfirst (by omega) hin, hpast,
          getElem?_wrapIn_inside ho hs (by omega) (by omega), Bytes.getElem?_append_right (by omega),
          Nat.add_sub_cancel_left]
      · rw [← hpast, getElem?_wrapIn_outside hafter hfirst (by omega) (by omega), hpast,
          getElem?_wrapIn_outside ho hs (by omega) hi, getElem?_wrapIn_outside ho hs (by omega) hi]
  · rw [Bytes.getElem?_of_size_le (by omega), Bytes.getElem?_of_size_le (by omega)]

theorem offset_put (hc : 0 < r.capacity) : (r.put a).write.offset = (r.write.offset + a.size) % r.capacity := by
  show (r.write.advance a.size r.capacity).offset = _
  rw [Cursor.advance, if_neg (by omega)]

section Open
variable (h : Sound r) (hopen : r.isClosed = false)
include h hopen

theorem put_of_empty (ha : a.size = 0) : r.put a = r := by
  have hroom := h.room
  obtain ⟨store, hs⟩ := isClosed_eq_false_iff.mp hopen
  refine ext_positions h (sound_put h (by omega)) rfl ?_ rfl rfl ?_ rfl
  · have hoffset : r.write.offset ≤ r.capacity := by
      rcases h.write with hlt | ⟨-, hzero⟩
      · omega
      · simp [hzero, Cursor.zero]
    rw [storage_put hs, hs, wrapIn_of_empty hoffset (h.storage store hs) ha]
  · rw [writePosition_put (by omega), ha, Nat.add_zero]

theorem put_put (hroom : r.len + (a.size + b.size) ≤ r.capacity) : (r.put a).put b = r.put (a ++ b) := by
  have hboth : (a ++ b).size = a.size + b.size := ByteArray.size_append
  have hfirst : Sound (r.put a) := sound_put h (by omega)
  rcases Nat.eq_zero_or_pos r.capacity with hc | hc
  · rw [put_of_empty h hopen (by omega), put_of_empty h hopen (by omega), put_of_empty h hopen (by omega)]
  · obtain ⟨store, hs⟩ := isClosed_eq_false_iff.mp hopen
    refine ext_positions (sound_put h (by omega)) (sound_put hfirst (by rw [len_put, capacity_put]; omega)) rfl ?_ rfl rfl ?_ rfl
    · rw [storage_put (storage_put hs), storage_put hs, capacity_put, offset_put hc,
        wrapIn_append (h.write.offset_lt hc) (h.storage store hs) (by omega)]
    · rw [writePosition_put (by rw [len_put, capacity_put]; omega), writePosition_put (by omega),
        writePosition_put (by omega), hboth, Nat.add_assoc]

/-- A write for which there is room is carried out, also one of no bytes. -/
theorem append_eq_put (hroom : r.len + a.size ≤ r.capacity) :
    (r.append a).ring = r.put a ∧ (r.append a).answer = .ok a.size := by
  have hr := (refusal?_eq_none h).mpr ⟨hopen, hroom⟩
  rcases append_cases r a with ⟨cause, hc, -⟩ | ⟨-, hz, he⟩ | ⟨-, -, he⟩
  · rw [hr] at hc
    cases hc
  · rw [he, put_of_empty h hopen hz, hz]
    exact ⟨rfl, rfl⟩
  · rw [he]
    exact ⟨rfl, rfl⟩

end Open

/-! ### Reading -/

section Reading
variable {whole first second : ByteArray} {left between last : Ring}

/-- Two reads, the second where the first ended, take what one read takes. -/
theorem Taken.join (hwhole : Taken r n position whole left) (hfirst : Taken r k position first between)
    (hsecond : Taken between (n - k) (position + k) second last) (hk : k < min n (r.writePosition - position)) :
    whole = first ++ second ∧ left = last := by
  have hsize := hwhole.size
  have hsize₁ := hfirst.size
  have hsize₂ := hsecond.size
  rw [hfirst.writePosition] at hsize₂
  constructor
  · refine Bytes.ext_getElem? fun i => ?_
    by_cases hhead : i < first.size
    · rw [Bytes.getElem?_append_left hhead, hwhole.byte i (by omega), hfirst.byte i hhead]
    · rw [Bytes.getElem?_append_right (by omega)]
      by_cases hin : i < whole.size
      · rw [hwhole.byte i hin, hsecond.byte (i - first.size) (by omega), hfirst.byte?_eq]
        congr 1
        omega
      · rw [Bytes.getElem?_of_size_le (by omega), Bytes.getElem?_of_size_le (by omega)]
  · refine ext_positions hsecond.sound hwhole.sound ?_ ?_ ?_ ?_ ?_ ?_
    · rw [hwhole.capacity, hsecond.capacity, hfirst.capacity]
    · rw [hwhole.storage, hsecond.storage, hfirst.storage]
    · rw [hwhole.base, hsecond.base, hfirst.base]
    · rw [hwhole.start, hsecond.start]
      omega
    · rw [hwhole.writePosition, hsecond.writePosition, hfirst.writePosition]
    · rw [hwhole.stop, hsecond.stop, hfirst.stop]

end Reading

/-- In an open ring after whatever operations, two writes that there is room for leave the ring that one
    write of both leaves. Where a read has more to give than `k` bytes, reading `k` bytes first and then the
    rest gives the same bytes as the one read, and leaves the same ring. -/
theorem pieces_make_the_whole (storage : ByteArray) (start : Nat) (ops : List Op) :
    let r := (run ops (onStorage storage start)).2
    r.isClosed = false →
      (∀ a b : ByteArray, a.size + b.size ≤ r.free →
        (r.append a).answer = .ok a.size ∧ ((r.append a).ring.append b).answer = .ok b.size ∧
          (r.append (a ++ b)).answer = .ok (a.size + b.size) ∧
          ((r.append a).ring.append b).ring = (r.append (a ++ b)).ring) ∧
      ∀ n k position, r.isResident position = true → k < min n (r.writePosition - position) →
        ∃ first second, (r.readAt k position).answer = .ok first ∧
          ((r.readAt k position).ring.readAt (n - k) (position + k)).answer = .ok second ∧
          (r.readAt n position).answer = .ok (first ++ second) ∧
          ((r.readAt k position).ring.readAt (n - k) (position + k)).ring = (r.readAt n position).ring := by
  intro r hopen
  have h : Sound r := ((Shows.fresh storage start).run ops).2.sound
  constructor
  · intro a b hroom
    rw [free_of_open hopen] at hroom
    have hlen := h.room
    have hboth : (a ++ b).size = a.size + b.size := ByteArray.size_append
    obtain ⟨hring, hanswer⟩ := append_eq_put (a := a) h hopen (by omega)
    have hfirst : Sound (r.put a) := sound_put h (by omega)
    obtain ⟨hring₂, hanswer₂⟩ := append_eq_put (a := b) hfirst (by rw [isClosed_put, hopen])
      (by rw [len_put, capacity_put]; omega)
    obtain ⟨hwhole, hanswer₃⟩ := append_eq_put (a := a ++ b) h hopen (by omega)
    rw [hring, hring₂, hwhole, put_put h hopen (by omega)]
    exact ⟨hanswer, hanswer₂, hboth ▸ hanswer₃, rfl⟩
  · intro n k position hres hk
    obtain ⟨-, hlow, -⟩ := (isResident_iff h).mp hres
    obtain ⟨whole, left, he, hwhole⟩ := readAt_of_resident h hres n
    obtain ⟨first, between, he₁, hfirst⟩ := readAt_of_resident h hres k
    have hrest : between.isResident (position + k) = true := by
      have hsize := hfirst.size
      rw [isResident_iff hfirst.sound, hfirst.isClosed_eq, hfirst.start, hfirst.writePosition]
      exact ⟨hopen, by omega, by omega⟩
    obtain ⟨second, last, he₂, hsecond⟩ := readAt_of_resident hfirst.sound hrest (n - k)
    obtain ⟨rfl, rfl⟩ := hwhole.join hfirst hsecond hk
    exact ⟨first, second, by rw [he₁], by rw [he₁, he₂], by rw [he], by rw [he₁, he₂, he]⟩

/-- Of two bytes written one by one the second goes round to the beginning of the storage, and two that are
    buffered are read one by one. -/
theorem second_byte_goes_round :
    let r := (run [.append ⟨#[1, 2, 3]⟩, .readAt 1 5] (onStorage ⟨#[0, 0, 0, 0]⟩ 5)).2
    ((r.append ⟨#[4]⟩).ring.append ⟨#[5]⟩).ring = (r.append (⟨#[4]⟩ ++ ⟨#[5]⟩)).ring ∧
      ∃ first second, (r.readAt 1 6).answer = .ok first ∧ ((r.readAt 1 6).ring.readAt 1 7).answer = .ok second ∧
        (r.readAt 2 6).answer = .ok (first ++ second) := by
  obtain ⟨hwrites, hreads⟩ := pieces_make_the_whole ⟨#[0, 0, 0, 0]⟩ 5 [.append ⟨#[1, 2, 3]⟩, .readAt 1 5] (by decide)
  obtain ⟨first, second, hfirst, hsecond, hwhole, -⟩ := hreads 2 1 6 (by decide) (by decide)
  exact ⟨(hwrites ⟨#[4]⟩ ⟨#[5]⟩ (by decide)).2.2.2, first, second, hfirst, hsecond, hwhole⟩

end Ring
end ReadAhead
