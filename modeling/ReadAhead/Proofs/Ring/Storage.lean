import ReadAhead.Ring

/-! The storage of a ring, byte by byte. What is put at an offset is found there again, the part beyond the
    end of the storage at its beginning, and nothing else changes. Bytes are counted from the offset, so
    the byte `i` further on is at `(offset + i) % capacity`. -/

namespace ReadAhead

namespace Bytes
variable {dest data bytes : ByteArray} {offset start stop i : Nat}

theorem getElem?_extract (h : i < stop - start) (hs : stop ≤ bytes.size) :
    (bytes.extract start stop).data[i]? = bytes.data[start + i]? := by
  rw [ByteArray.data_extract, Array.getElem?_extract, ByteArray.size_data, if_pos (by omega)]

theorem getElem?_of_size_le (h : bytes.size ≤ i) : bytes.data[i]? = none := by
  rw [Array.getElem?_eq_none]
  rwa [ByteArray.size_data]

theorem getElem?_append_left (h : i < data.size) : (data ++ bytes).data[i]? = data.data[i]? := by
  rw [ByteArray.data_append, Array.getElem?_append_left]
  rwa [ByteArray.size_data]

theorem getElem?_append_right (h : data.size ≤ i) : (data ++ bytes).data[i]? = bytes.data[i - data.size]? := by
  rw [ByteArray.data_append, Array.getElem?_append_right, ByteArray.size_data]
  rwa [ByteArray.size_data]

theorem getElem?_overlay_inside (h : offset + data.size ≤ dest.size) (hlow : offset ≤ i) (hhigh : i < offset + data.size) :
    (overlay dest offset data).data[i]? = data.data[i - offset]? := by
  have hhead : (dest.data.extract 0 offset).size = offset := by
    rw [Array.size_extract, ByteArray.size_data]
    omega
  rw [overlay_eq, ByteArray.data_append, ByteArray.data_append, ByteArray.data_extract,
    Array.getElem?_append_left (by rw [Array.size_append, hhead, ByteArray.size_data]; omega),
    Array.getElem?_append_right (by rw [hhead]; omega), hhead]

theorem getElem?_overlay_outside (h : offset + data.size ≤ dest.size) (hout : i < offset ∨ offset + data.size ≤ i) :
    (overlay dest offset data).data[i]? = dest.data[i]? := by
  have hhead : (dest.data.extract 0 offset).size = offset := by
    rw [Array.size_extract, ByteArray.size_data]
    omega
  rw [overlay_eq, ByteArray.data_append, ByteArray.data_append, ByteArray.data_extract, ByteArray.data_extract]
  rcases hout with hlow | hhigh
  · rw [Array.getElem?_append_left (by rw [Array.size_append, hhead]; omega),
      Array.getElem?_append_left (by rw [hhead]; omega), Array.getElem?_extract, ByteArray.size_data,
      if_pos (by omega), Nat.zero_add]
  · rw [Array.getElem?_append_right (by rw [Array.size_append, hhead, ByteArray.size_data]; omega), Array.size_append,
      hhead, ByteArray.size_data, Array.getElem?_extract, ByteArray.size_data]
    by_cases hend : i < dest.size
    · rw [if_pos (by omega)]
      congr 1
      omega
    · rw [if_neg (by omega), getElem?_of_size_le (by omega)]

theorem ext_getElem? (h : ∀ i : Nat, data.data[i]? = bytes.data[i]?) : data = bytes :=
  ByteArray.ext (Array.ext_getElem? h)

/-- Data laid over one behind the other are laid over at once. -/
theorem overlay_append (h : offset + data.size + bytes.size ≤ dest.size) :
    overlay (overlay dest offset data) (offset + data.size) bytes = overlay dest offset (data ++ bytes) := by
  have hboth : (data ++ bytes).size = data.size + bytes.size := ByteArray.size_append
  have hfirst : (overlay dest offset data).size = dest.size := size_overlay (by omega)
  refine ext_getElem? fun i => ?_
  by_cases hin : offset ≤ i ∧ i < offset + (data ++ bytes).size
  · obtain ⟨hlow, hhigh⟩ := hin
    rw [getElem?_overlay_inside (by omega) hlow hhigh]
    by_cases hhead : i < offset + data.size
    · rw [getElem?_overlay_outside (by omega) (Or.inl hhead), getElem?_overlay_inside (by omega) hlow hhead,
        getElem?_append_left (by omega)]
    · rw [getElem?_overlay_inside (by omega) (by omega) (by omega),
        getElem?_append_right (by omega), Nat.sub_add_eq]
  · rw [getElem?_overlay_outside (by omega) (by omega), getElem?_overlay_outside (by omega) (by omega),
      getElem?_overlay_outside (by omega) (by omega)]

end Bytes

namespace Ring
variable {store data : ByteArray} {capacity offset n i : Nat}

theorem round_of_le (h : capacity ≤ offset + i) (ho : offset < capacity) (hi : i ≤ capacity) :
    (offset + i) % capacity = offset + i - capacity := by
  rw [Nat.mod_eq_sub_mod h, Nat.mod_eq_of_lt (by omega)]

/-! ### Putting in -/

theorem wrapIn_of_fits (h : offset + data.size ≤ capacity) :
    wrapIn store capacity offset data = Bytes.overlay store offset data := by
  have hfirst : min (capacity - offset) data.size = data.size := by omega
  simp [wrapIn, hfirst]

/-- Data that goes round leaves its tail at the beginning of the storage. -/
theorem wrapIn_of_wraps (ho : offset < capacity) (h : capacity < offset + data.size) :
    wrapIn store capacity offset data =
      Bytes.overlay (Bytes.overlay store offset (data.extract 0 (capacity - offset))) 0
        (data.extract (capacity - offset) data.size) := by
  have hfirst : min (capacity - offset) data.size = capacity - offset := by omega
  have hmore : capacity - offset < data.size := by omega
  simp [wrapIn, hfirst, hmore]

/-- The sizes of the part that fits, of the part that goes round, and of the storage with the first. -/
theorem sizes_of_wraps (ho : offset < capacity) (hs : store.size = capacity) (h : capacity < offset + data.size) :
    (data.extract 0 (capacity - offset)).size = capacity - offset ∧
      (data.extract (capacity - offset) data.size).size = offset + data.size - capacity ∧
      (Bytes.overlay store offset (data.extract 0 (capacity - offset))).size = capacity := by
  have hhead : (data.extract 0 (capacity - offset)).size = capacity - offset := by
    rw [ByteArray.size_extract]
    omega
  refine ⟨hhead, ?_, ?_⟩
  · rw [ByteArray.size_extract]
    omega
  · rw [Bytes.size_overlay (by omega), hs]

theorem size_wrapIn (ho : offset < capacity) (hs : store.size = capacity) (hd : data.size ≤ capacity) :
    (wrapIn store capacity offset data).size = capacity := by
  by_cases h : offset + data.size ≤ capacity
  · rw [wrapIn_of_fits h, Bytes.size_overlay (by omega), hs]
  · have hwraps : capacity < offset + data.size := by omega
    obtain ⟨hhead, htail, hfirst⟩ := sizes_of_wraps ho hs hwraps
    rw [wrapIn_of_wraps ho hwraps, Bytes.size_overlay (by omega), hfirst]

/-- What was put in is found `i` bytes on from where it was put. -/
theorem getElem?_wrapIn_inside (ho : offset < capacity) (hs : store.size = capacity) (hd : data.size ≤ capacity)
    (hi : i < data.size) : (wrapIn store capacity offset data).data[(offset + i) % capacity]? = data.data[i]? := by
  by_cases h : offset + data.size ≤ capacity
  · rw [wrapIn_of_fits h, Nat.mod_eq_of_lt (by omega), Bytes.getElem?_overlay_inside (by omega) (by omega) (by omega),
      Nat.add_sub_cancel_left]
  · have hwraps : capacity < offset + data.size := by omega
    obtain ⟨hhead, htail, hfirst⟩ := sizes_of_wraps ho hs hwraps
    rw [wrapIn_of_wraps ho hwraps]
    by_cases hend : offset + i < capacity
    · rw [Nat.mod_eq_of_lt hend, Bytes.getElem?_overlay_outside (by omega) (by omega),
        Bytes.getElem?_overlay_inside (by omega) (by omega) (by omega), Nat.add_sub_cancel_left,
        Bytes.getElem?_extract (by omega) (by omega), Nat.zero_add]
    · have hback : capacity - offset + (offset + i - capacity - 0) = i := by omega
      rw [round_of_le (by omega) ho (by omega), Bytes.getElem?_overlay_inside (by omega) (by omega) (by omega),
        Bytes.getElem?_extract (by omega) (by omega), hback]

/-- The bytes further on than what was put in stay. -/
theorem getElem?_wrapIn_outside (ho : offset < capacity) (hs : store.size = capacity) (hd : data.size ≤ i)
    (hi : i < capacity) :
    (wrapIn store capacity offset data).data[(offset + i) % capacity]? = store.data[(offset + i) % capacity]? := by
  by_cases h : offset + data.size ≤ capacity
  · rw [wrapIn_of_fits h]
    apply Bytes.getElem?_overlay_outside (by omega)
    by_cases hend : offset + i < capacity
    · rw [Nat.mod_eq_of_lt hend]
      omega
    · rw [round_of_le (by omega) ho (by omega)]
      omega
  · have hwraps : capacity < offset + data.size := by omega
    obtain ⟨hhead, htail, hfirst⟩ := sizes_of_wraps ho hs hwraps
    rw [wrapIn_of_wraps ho hwraps, round_of_le (by omega) ho (by omega),
      Bytes.getElem?_overlay_outside (by omega) (by omega), Bytes.getElem?_overlay_outside (by omega) (by omega)]

/-! ### Taking out -/

theorem wrapOut_of_fits (h : offset + n ≤ capacity) :
    wrapOut store capacity offset n = store.extract offset (offset + n) := by
  have hfirst : min (capacity - offset) n = n := by omega
  simp [wrapOut, hfirst]

theorem wrapOut_of_wraps (ho : offset < capacity) (h : capacity < offset + n) :
    wrapOut store capacity offset n = store.extract offset capacity ++ store.extract 0 (n - (capacity - offset)) := by
  have hfirst : min (capacity - offset) n = capacity - offset := by omega
  have hend : offset + (capacity - offset) = capacity := by omega
  have hmore : capacity - offset < n := by omega
  simp [wrapOut, hfirst, hend, hmore]

theorem size_wrapOut (ho : offset < capacity) (hs : store.size = capacity) (hn : n ≤ capacity) :
    (wrapOut store capacity offset n).size = n := by
  by_cases h : offset + n ≤ capacity
  · rw [wrapOut_of_fits h, ByteArray.size_extract]
    omega
  · rw [wrapOut_of_wraps ho (by omega), ByteArray.size_append, ByteArray.size_extract, ByteArray.size_extract]
    omega

theorem getElem?_wrapOut (ho : offset < capacity) (hs : store.size = capacity) (hn : n ≤ capacity) (hi : i < n) :
    (wrapOut store capacity offset n).data[i]? = store.data[(offset + i) % capacity]? := by
  by_cases h : offset + n ≤ capacity
  · rw [wrapOut_of_fits h, Bytes.getElem?_extract (by omega) (by omega), Nat.mod_eq_of_lt (by omega)]
  · have hhead : (store.extract offset capacity).data.size = capacity - offset := by
      rw [ByteArray.size_data, ByteArray.size_extract]
      omega
    rw [wrapOut_of_wraps ho (by omega), ByteArray.data_append]
    by_cases hend : offset + i < capacity
    · rw [Array.getElem?_append_left (by omega), Bytes.getElem?_extract (by omega) (by omega),
        Nat.mod_eq_of_lt hend]
    · have hback : 0 + (i - (capacity - offset)) = offset + i - capacity := by omega
      rw [Array.getElem?_append_right (by omega), hhead, Bytes.getElem?_extract (by omega) (by omega),
        round_of_le (by omega) ho (by omega), hback]

end Ring
end ReadAhead
