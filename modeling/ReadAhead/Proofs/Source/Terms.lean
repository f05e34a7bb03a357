import ReadAhead.Source

/-! What can be relied on of a source. Terms say which bytes may come at a position, where the data may end
    and which failures may come there. A source honours them if, asked for so many bytes again and again,
    it always answers within them. An answer without bytes is the end of the data, and like a failure the
    last that counts. -/

namespace ReadAhead
namespace Origin

structure Terms where
  byte : Nat → UInt8 → Prop
  ends : Nat → Prop
  fails : Nat → Failure → Prop

namespace Terms

/-- The bytes are those of a file, and the data may end or the source fail anywhere. -/
def file (content : Nat → UInt8) : Terms where
  byte := fun position b => b = content position
  ends := fun _ => True
  fails := fun _ _ => True

/-- The data ends exactly at `size`, and the source does not fail. -/
def whole (size : Nat) : Terms where
  byte := fun position _ => position < size
  ends := fun position => size ≤ position
  fails := fun _ _ => False

/-- No byte comes from `size` on; the data may end or the source fail anywhere. -/
def within (size : Nat) : Terms where
  byte := fun position _ => position < size
  ends := fun _ => True
  fails := fun _ _ => True

/-- The data goes on to `size` at least, and the source does not fail before. -/
def reaching (size : Nat) : Terms where
  byte := fun _ _ => True
  ends := fun position => size ≤ position
  fails := fun position _ => size ≤ position

/-- An answer at `position` is within the terms, and `onward` holds of the position behind its bytes. -/
def Allow (terms : Terms) (position : Nat) (answer : Except Failure ByteArray) (onward : Nat → Prop) : Prop :=
  match answer with
  | .error cause => terms.fails position cause
  | .ok bytes =>
    if bytes.size = 0 then terms.ends position
    else (∀ i b, bytes.data[i]? = some b → terms.byte (position + i) b) ∧ onward (position + bytes.size)

variable {terms : Terms} {position : Nat} {onward other : Nat → Prop}

theorem Allow.imp {answer : Except Failure ByteArray} (h : terms.Allow position answer onward)
    (himp : ∀ p, onward p → other p) : terms.Allow position answer other := by
  cases answer with
  | error cause => exact h
  | ok bytes =>
    unfold Allow at h ⊢
    simp only at h ⊢
    split
    · rwa [if_pos ‹_›] at h
    · rw [if_neg ‹_›] at h
      exact ⟨h.1, himp _ h.2⟩

theorem allow_bytes {bytes : ByteArray} (hpos : 0 < bytes.size) :
    terms.Allow position (.ok bytes) onward ↔
      (∀ i b, bytes.data[i]? = some b → terms.byte (position + i) b) ∧ onward (position + bytes.size) := by
  unfold Allow
  simp only
  rw [if_neg (by omega)]

theorem allow_end {bytes : ByteArray} (hz : bytes.size = 0) :
    terms.Allow position (.ok bytes) onward ↔ terms.ends position := by
  unfold Allow
  simp only
  rw [if_pos hz]

/-- Bytes that are all allowed before `size` end there. -/
theorem end_le {bytes : ByteArray} {size : Nat} (hpos : 0 < bytes.size)
    (h : ∀ i b, bytes.data[i]? = some b → (within size).byte (position + i) b) : position + bytes.size ≤ size := by
  have hlast : bytes.size - 1 < bytes.data.size := by
    rw [ByteArray.size_data]
    exact Nat.sub_lt hpos Nat.one_pos
  have hin : position + (bytes.size - 1) < size := h _ _ (Array.getElem?_eq_getElem hlast)
  omega

/-- Of allowed bytes, those behind the first `n` are allowed at the position behind these. -/
theorem Allow.extract {bytes : ByteArray} {n : Nat} (hn : n < bytes.size) (h : terms.Allow position (.ok bytes) onward) :
    terms.Allow (position + n) (.ok (bytes.extract n bytes.size)) onward := by
  have hsize : (bytes.extract n bytes.size).size = bytes.size - n := by
    rw [ByteArray.size_extract]
    omega
  obtain ⟨hbytes, honward⟩ := (allow_bytes (by omega)).mp h
  refine (allow_bytes (by omega)).mpr ⟨fun i b hb => ?_, ?_⟩
  · rw [ByteArray.data_extract, Array.getElem?_extract] at hb
    split at hb
    · rw [Nat.add_assoc]
      exact hbytes (n + i) b hb
    · cases hb
  · rw [hsize, Nat.add_assoc]
    rwa [Nat.add_sub_cancel' (Nat.le_of_lt hn)]

end Terms

variable {σ : Type} {origin : Origin σ} {terms : Terms} {limit position : Nat} {source : σ}

/-- Asked for `limit` bytes again and again, the source that stands at `position` answers within the terms:
    there is a relation between positions and sources that every such answer keeps. -/
def Honours (origin : Origin σ) (terms : Terms) (limit position : Nat) (source : σ) : Prop :=
  ∃ stands : Nat → σ → Prop, stands position source ∧ ∀ p x, stands p x →
    terms.Allow p (origin.read x limit).answer fun q => stands q (origin.read x limit).next

theorem Honours.read (h : origin.Honours terms limit position source) :
    terms.Allow position (origin.read source limit).answer fun q =>
      origin.Honours terms limit q (origin.read source limit).next := by
  obtain ⟨stands, hnow, hstep⟩ := h
  exact (hstep position source hnow).imp fun p hp => ⟨stands, hp, hstep⟩

/-! ### A source that counts -/

/-- The file of `size` bytes that counts up from zero, given byte by byte. -/
def counting (size : Nat) : Origin Nat where
  connect := fun _ _ start => .ok start
  read := fun position limit =>
    if limit = 0 ∨ size ≤ position then ⟨0, .ok ByteArray.empty, position⟩
    else ⟨0, .ok ⟨#[UInt8.ofNat position]⟩, position + 1⟩
  read_le := by
    intro position limit bytes h
    split at h
    · obtain rfl := Except.ok.inj h
      exact Nat.zero_le _
    · obtain rfl := Except.ok.inj h
      show 1 ≤ limit
      omega

/-- What it answers is within all terms that allow its bytes, and its end where it is asked for more. -/
theorem counting_honours {size limit : Nat} (hbyte : ∀ p < size, terms.byte p (UInt8.ofNat p))
    (hends : ∀ p, limit = 0 ∨ size ≤ p → terms.ends p) (start : Nat) :
    (counting size).Honours terms limit start start := by
  refine ⟨fun p x => x = p, rfl, ?_⟩
  rintro p x rfl
  simp only [counting]
  split
  · rename_i hstop
    exact (Terms.allow_end rfl).mpr (hends x hstop)
  · rename_i hgo
    have hsize : 0 < ByteArray.size ⟨#[UInt8.ofNat x]⟩ := Nat.one_pos
    refine (Terms.allow_bytes hsize).mpr ⟨fun i b hb => ?_, rfl⟩
    cases i with
    | zero =>
      obtain rfl : UInt8.ofNat x = b := by simpa using hb
      exact hbyte x (by omega)
    | succ i => simp at hb

end Origin
end ReadAhead
