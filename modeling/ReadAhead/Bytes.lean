/-! Byte strings. A buffer of zeros, the overlay of one byte string on another at an offset, and what
    both leave at each index. -/

namespace ReadAhead

/-- Two byte strings are the same if they have the same bytes. -/
instance bytesDecidableEq : DecidableEq ByteArray := fun a b =>
  decidable_of_iff (a.data = b.data) ⟨fun h => by cases a; cases b; exact congrArg ByteArray.mk h, congrArg _⟩

namespace Bytes

/-- `n` zero bytes, built by doubling. -/
def zeros (n : Nat) : ByteArray :=
  if n = 0 then ByteArray.empty
  else
    let half := zeros (n / 2)
    if n % 2 = 0 then half ++ half else (half ++ half).push 0
termination_by n

/-- `data` laid over `dest` from `offset` on; the rest of `dest` stays. -/
def overlay (dest : ByteArray) (offset : Nat) (data : ByteArray) : ByteArray :=
  data.copySlice 0 dest offset data.size

/-- The bytes `f 0`, `f 1`, …, `f (n - 1)`. -/
def ofFn (n : Nat) (f : Nat → UInt8) : ByteArray :=
  go n 0 (ByteArray.emptyWithCapacity n)
where
  /-- Appends `left` more bytes to `done`, starting with `f i`. -/
  go : Nat → Nat → ByteArray → ByteArray
    | 0, _, done => done
    | left + 1, i, done => go left (i + 1) (done.push (f i))

/-! ### Sizes -/

@[simp] theorem size_zeros (n : Nat) : (zeros n).size = n := by
  induction n using Nat.strongRecOn with
  | _ n ih =>
    rw [zeros]
    split
    · simp_all
    · have h := ih (n / 2) (by omega)
      split <;> simp [ByteArray.size_append, ByteArray.size_push, h] <;> omega

theorem size_go (f : Nat → UInt8) :
    ∀ (n i : Nat) (done : ByteArray), (ofFn.go f n i done).size = done.size + n
  | 0, _, _ => by simp [ofFn.go]
  | n + 1, i, done => by
    rw [ofFn.go, size_go f n, ByteArray.size_push]
    omega

@[simp] theorem size_ofFn (n : Nat) (f : Nat → UInt8) : (ofFn n f).size = n := by
  have h : (ByteArray.emptyWithCapacity n).size = 0 := rfl
  rw [ofFn, size_go, h, Nat.zero_add]

theorem overlay_eq {dest data : ByteArray} {offset : Nat} :
    overlay dest offset data =
      dest.extract 0 offset ++ data ++ dest.extract (offset + data.size) dest.size := by
  rw [overlay, ByteArray.copySlice_eq_append]
  simp

@[simp] theorem size_overlay {dest data : ByteArray} {offset : Nat} (h : offset + data.size ≤ dest.size) :
    (overlay dest offset data).size = dest.size := by
  rw [overlay_eq]
  simp only [ByteArray.size_append, ByteArray.size_extract]
  omega

/-! ### As lists -/

theorem toList_eq_nil {bytes : ByteArray} (h : bytes.size = 0) : bytes.data.toList = [] := by
  rw [← List.length_eq_zero_iff, Array.length_toList, ByteArray.size_data, h]

/-- The first bytes and those that are left are all there are. -/
theorem toList_split {bytes : ByteArray} {m : Nat} (h : m ≤ bytes.size) :
    (bytes.extract 0 m).data.toList ++ (bytes.extract m bytes.size).data.toList = bytes.data.toList := by
  rw [← Array.toList_append, ← ByteArray.data_append, ByteArray.extract_append_extract, Nat.zero_min, Nat.max_eq_right h,
    ByteArray.extract_zero_size]

end Bytes
end ReadAhead
