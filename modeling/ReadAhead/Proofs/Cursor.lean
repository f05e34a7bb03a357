import ReadAhead.Cursor

/-! Cursors as distances. A cursor that fits a ring is told by the bytes before it (`linear`), so the
    window test on pages and offsets is one comparison of distances, and moving on adds to them. Between the
    positions from the base on and the slots there is thus no difference (`stands_for_position`). -/

namespace ReadAhead
namespace Cursor
variable {a b c slot read write : Cursor} {base capacity n position : Nat}

/-- The cursor is a slot of a ring of `capacity` bytes. A ring without room has the first slot only. -/
def Fits (c : Cursor) (capacity : Nat) : Prop := c.offset < capacity ∨ (capacity = 0 ∧ c = zero)

theorem fits_zero (capacity : Nat) : zero.Fits capacity := by
  rcases Nat.eq_zero_or_pos capacity with h | h
  · exact Or.inr ⟨h, rfl⟩
  · exact Or.inl h

theorem Fits.offset_lt (h : c.Fits capacity) (hc : 0 < capacity) : c.offset < capacity := by
  rcases h with h | ⟨h, -⟩
  · exact h
  · omega

@[simp] theorem linear_zero (capacity : Nat) : zero.linear capacity = 0 := by simp [linear, zero]

theorem Fits.linear_mod (h : c.Fits capacity) : c.linear capacity % capacity = c.offset := by
  rcases h with h | ⟨rfl, rfl⟩
  · rw [linear, Nat.mul_add_mod_self_right, Nat.mod_eq_of_lt h]
  · rfl

theorem Fits.linear_add_mod (h : c.Fits capacity) (n : Nat) :
    (c.linear capacity + n) % capacity = (c.offset + n) % capacity := by
  rw [Nat.add_mod, h.linear_mod, Nat.add_mod_mod]

/-- Slots at the same distance are on the same page. -/
theorem Fits.eq_of_linear (ha : a.Fits capacity) (hb : b.Fits capacity) (h : a.linear capacity = b.linear capacity) :
    a = b := by
  have hoffset : a.offset = b.offset := by rw [← ha.linear_mod, ← hb.linear_mod, h]
  rcases ha with hlt | ⟨rfl, rfl⟩
  · have hpage : a.page = b.page := by
      refine Nat.eq_of_mul_eq_mul_right (Nat.zero_lt_of_lt hlt) ?_
      simp only [linear] at h
      omega
    cases a
    cases b
    simp_all
  · rcases hb with hlt | ⟨-, rfl⟩
    · exact absurd hlt (Nat.not_lt_zero _)
    · rfl

/-! ### Order -/

theorem linear_lt_of_page_lt (ha : a.offset < capacity) (h : a.page < b.page) :
    a.linear capacity < b.linear capacity := by
  have hmul : (a.page + 1) * capacity ≤ b.page * capacity := Nat.mul_le_mul_right capacity h
  rw [Nat.add_mul, Nat.one_mul] at hmul
  unfold linear
  omega

theorem linear_lt_iff_of_page_eq (h : a.page = b.page) :
    a.linear capacity < b.linear capacity ↔ a.offset < b.offset := by
  unfold linear
  rw [h]
  omega

theorem linear_le_iff_of_page_eq (h : a.page = b.page) :
    a.linear capacity ≤ b.linear capacity ↔ a.offset ≤ b.offset := by
  unfold linear
  rw [h]
  omega

/-- The test on pages and offsets is the one interval test on distances, in whatever order the cursors
    stand. -/
theorem within_iff (hs : slot.offset < capacity) (hr : read.offset < capacity) (hw : write.offset < capacity) :
    slot.within read write = true ↔
      read.linear capacity ≤ slot.linear capacity ∧ slot.linear capacity < write.linear capacity := by
  unfold within PageRelation.of
  by_cases hbefore : slot.page < read.page
  · have := linear_lt_of_page_lt hs hbefore
    simp only [if_pos hbefore, Bool.false_eq_true, false_iff]
    omega
  rw [if_neg hbefore]
  by_cases hafter : slot.page > write.page
  · have := linear_lt_of_page_lt hw hafter
    simp only [if_pos hafter, Bool.false_eq_true, false_iff]
    omega
  rw [if_neg hafter]
  -- From here on the slot lies between the pages of the two ends, so only offsets are left to compare.
  by_cases hshared : read.page = write.page
  · have hpage : read.page = slot.page := by omega
    simp only [if_pos hshared, decide_eq_true_eq]
    rw [linear_le_iff_of_page_eq hpage, linear_lt_iff_of_page_eq (hpage.symm.trans hshared)]
  rw [if_neg hshared]
  by_cases hread : slot.page = read.page
  · have := linear_lt_of_page_lt (b := write) hs (by omega)
    simp only [if_pos hread, decide_eq_true_eq]
    rw [linear_le_iff_of_page_eq hread.symm]
    omega
  rw [if_neg hread]
  have hlater := linear_lt_of_page_lt (b := slot) hr (by omega)
  by_cases hwrite : slot.page = write.page
  · simp only [if_pos hwrite, decide_eq_true_eq]
    rw [linear_lt_iff_of_page_eq hwrite]
    omega
  · have := linear_lt_of_page_lt (b := write) hs (by omega)
    simp only [if_neg hwrite, true_iff]
    omega

/-! ### Moving on and finding a position -/

theorem fits_advance (h : c.Fits capacity) (n : Nat) : (c.advance n capacity).Fits capacity := by
  unfold advance
  split
  · exact h
  · exact Or.inl (Nat.mod_lt _ (by omega))

theorem linear_advance (hc : 0 < capacity) (c : Cursor) (n : Nat) :
    (c.advance n capacity).linear capacity = c.linear capacity + n := by
  have hdiv := Nat.div_add_mod' (c.offset + n) capacity
  rw [advance, if_neg (by omega), linear, linear, Nat.add_mul]
  simp only
  omega

theorem locate_eq_none_iff : locate position base capacity = none ↔ capacity = 0 ∨ position < base := by
  unfold locate
  split <;> simp_all

/-- The slot of a position lies as far from the base as the position. -/
theorem locate_eq_some (h : locate position base capacity = some slot) :
    slot.offset < capacity ∧ base + slot.linear capacity = position := by
  unfold locate at h
  split at h
  · cases h
  · rename_i hin
    obtain rfl := Option.some.inj h
    have hdiv := Nat.div_add_mod' (position - base) capacity
    refine ⟨Nat.mod_lt _ (by omega), ?_⟩
    simp only [linear]
    omega

/-- Of all slots, that of a position is the one that lies as far from the base. -/
theorem locate_eq_some_iff (hc : 0 < capacity) :
    locate position base capacity = some c ↔ c.offset < capacity ∧ base + c.linear capacity = position := by
  refine ⟨locate_eq_some, ?_⟩
  rintro ⟨hoffset, hlinear⟩
  cases hslot : locate position base capacity with
  | none => rcases locate_eq_none_iff.mp hslot with hzero | hbefore <;> omega
  | some slot =>
    obtain ⟨hfits, hsame⟩ := locate_eq_some hslot
    have heq : slot.linear capacity = c.linear capacity := by omega
    rw [Fits.eq_of_linear (Or.inl hfits) (Or.inl hoffset) heq]

theorem exists_locate (hc : 0 < capacity) (h : base ≤ position) : ∃ slot, locate position base capacity = some slot := by
  cases hslot : locate position base capacity with
  | none => rcases locate_eq_none_iff.mp hslot with hzero | hbefore <;> omega
  | some slot => exact ⟨slot, rfl⟩

/-- Moving on from the slot of a position leads to the slot of the position as much further on. -/
theorem locate_add (hc : 0 < capacity) (h : base ≤ position) (n : Nat) :
    locate (position + n) base capacity = (locate position base capacity).map (·.advance n capacity) := by
  obtain ⟨slot, hslot⟩ := exists_locate hc h
  obtain ⟨hoffset, hlinear⟩ := locate_eq_some hslot
  rw [hslot, Option.map_some, locate_eq_some_iff hc, linear_advance hc]
  exact ⟨(fits_advance (Or.inl hoffset) n).offset_lt hc, by omega⟩

/-- In a ring with room, a position from the base on and its slot stand for each other. Any cursor is a slot once it
    is moved on, by as much as it is moved on further from the base; and a slot lies in the window of two
    others, wherever these stand, if its position lies between theirs. -/
theorem stands_for_position {start stop : Nat} (hc : 0 < capacity) (hposition : base ≤ position) (hstart : base ≤ start)
    (hstop : base ≤ stop) :
    (∃ slot, locate position base capacity = some slot ∧ slot.offset < capacity ∧ base + slot.linear capacity = position ∧
      ∀ other : Cursor, other.offset < capacity → base + other.linear capacity = position → other = slot) ∧
    (∀ n, (locate position base capacity).map (·.advance n capacity) = locate (position + n) base capacity) ∧
    (∀ (c : Cursor) (n : Nat), (c.advance n capacity).offset < capacity ∧
      (c.advance n capacity).linear capacity = c.linear capacity + n) ∧
    ∃ slot read write, locate position base capacity = some slot ∧ locate start base capacity = some read ∧
      locate stop base capacity = some write ∧ (slot.within read write = true ↔ start ≤ position ∧ position < stop) := by
  obtain ⟨slot, hslot⟩ := exists_locate hc hposition
  obtain ⟨read, hread⟩ := exists_locate hc hstart
  obtain ⟨write, hwrite⟩ := exists_locate hc hstop
  obtain ⟨hslotOffset, hslotLinear⟩ := locate_eq_some hslot
  obtain ⟨hreadOffset, hreadLinear⟩ := locate_eq_some hread
  obtain ⟨hwriteOffset, hwriteLinear⟩ := locate_eq_some hwrite
  refine ⟨⟨slot, hslot, hslotOffset, hslotLinear, fun other hoffset hlinear => ?_⟩, fun n => (locate_add hc hposition n).symm,
    fun c n => ⟨?_, linear_advance hc c n⟩, slot, read, write, hslot, hread, hwrite, ?_⟩
  · have hother := (locate_eq_some_iff hc).mpr ⟨hoffset, hlinear⟩
    exact Option.some.inj (hother.symm.trans hslot)
  · rw [advance, if_neg (Nat.ne_of_gt hc)]
    exact Nat.mod_lt _ hc
  · rw [within_iff hslotOffset hreadOffset hwriteOffset]
    omega

/-- In a full ring both ends of the window have the same offset, and the slot before it on the later page lies in the
    window. -/
theorem full_lap_has_last_slot :
    0 < 10 ∧ 100 ≤ 114 ∧ 100 ≤ 105 ∧ 100 ≤ 115 ∧
      ∃ slot read write, locate 114 100 10 = some slot ∧ locate 105 100 10 = some read ∧ locate 115 100 10 = some write ∧
        read.offset = write.offset ∧ slot.within read write = true := by
  have hc : 0 < 10 := by decide
  have hposition : 100 ≤ 114 := by decide
  have hstart : 100 ≤ 105 := by decide
  have hstop : 100 ≤ 115 := by decide
  obtain ⟨-, -, -, slot, read, write, hslot, hread, hwrite, hwithin⟩ := stands_for_position hc hposition hstart hstop
  have hoffsets : read.offset = write.offset := by
    obtain rfl : (⟨0, 5⟩ : Cursor) = read := Option.some.inj hread
    obtain rfl : (⟨1, 5⟩ : Cursor) = write := Option.some.inj hwrite
    rfl
  exact ⟨hc, hposition, hstart, hstop, slot, read, write, hslot, hread, hwrite, hoffsets, hwithin.mpr (by decide)⟩

end Cursor
end ReadAhead
