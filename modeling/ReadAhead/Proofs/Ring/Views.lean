import Mathlib.Data.Set.Card
import Mathlib.Order.Interval.Finset.Nat
import ReadAhead.Proofs.Ring.Queue

/-! What can be read of a ring, seen from all sides. Residency goes by pages and offsets, a read by the
    storage and the stored length, the window by positions. While a ring is open they agree. Closing takes
    the storage only: from then on no position is readable, whatever the window and the length still say. -/

namespace ReadAhead
namespace Ring
variable {r : Ring} {position : Nat}

/-- The positions between the cursors, of which as many are buffered as `len` says. -/
def window (r : Ring) : Finset Nat := .Ico r.start r.writePosition

/-- Whether a read of `n` bytes at `position` succeeds. -/
def Yields (r : Ring) (n position : Nat) : Prop := ∃ bytes, (r.readAt n position).answer = .ok bytes

theorem mem_window : position ∈ r.window ↔ r.start ≤ position ∧ position < r.writePosition := Finset.mem_Ico

theorem card_window (h : Sound r) : r.window.card = r.len := by
  have hwindow := writePosition_eq h
  rw [window, Nat.card_Ico]
  omega

/-- A read succeeds where its position is readable, however many bytes it asks for. -/
theorem yields_iff (h : Sound r) (n position : Nat) : r.Yields n position ↔ r.isResident position = true := by
  cases hres : r.isResident position with
  | false =>
    rw [Yields, readAt_of_not_resident hres]
    simp
  | true =>
    obtain ⟨bytes, left, he, -⟩ := readAt_of_resident h hres n
    exact ⟨fun _ => rfl, fun _ => ⟨bytes, by rw [he]⟩⟩

theorem isResident_iff_mem_window (h : Sound r) :
    r.isResident position = true ↔ r.isClosed = false ∧ position ∈ r.window := by
  rw [isResident_iff h, mem_window]

theorem ncard_resident (h : Sound r) :
    {position | r.isResident position = true}.ncard = if r.isClosed then 0 else r.len := by
  cases hopen : r.isClosed with
  | true =>
    have hnone : {position | r.isResident position = true} = ∅ := by
      ext position
      simp [isResident_iff_mem_window h, hopen]
    rw [hnone, Set.ncard_empty, if_pos rfl]
  | false =>
    have hall : {position | r.isResident position = true} = ↑r.window := by
      ext position
      simp [isResident_iff_mem_window h, hopen]
    rw [hall, Set.ncard_coe_finset, card_window h, if_neg (by simp)]

/-- After whatever operations, a position is readable where a read that asks for a byte there succeeds. In
    an open ring these are the positions of the window and as many as its length says. A closed ring has
    none. -/
theorem open_ring_views_agree (storage : ByteArray) (start : Nat) (ops : List Op) :
    let r := (run ops (onStorage storage start)).2
    (∀ n position, r.Yields (n + 1) position ↔ r.isResident position = true) ∧
      (∀ position, r.isResident position = true ↔ r.isClosed = false ∧ position ∈ r.window) ∧
      {position | r.isResident position = true}.ncard = if r.isClosed then 0 else r.len := by
  have hsound := ((Shows.fresh storage start).run ops).2.sound
  exact ⟨fun n => yields_iff hsound (n + 1), fun _ => isResident_iff_mem_window hsound, ncard_resident hsound⟩

/-- A ring that is closed over a byte still has it in its window and counts it. -/
theorem closed_ring_shows_byte :
    let r := (run [.append ⟨#[7]⟩, .close] (onStorage ⟨#[0]⟩ 0)).2
    0 ∈ r.window ∧ r.len = 1 ∧ r.isResident 0 = false ∧ ¬r.Yields 1 0 := by
  refine ⟨mem_window.mpr ⟨by decide, by decide⟩, rfl, rfl, ?_⟩
  rintro ⟨bytes, h⟩
  cases h

end Ring
end ReadAhead
