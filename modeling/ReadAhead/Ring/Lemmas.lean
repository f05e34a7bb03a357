import ReadAhead.Ring

/-! What the operations of a ring do to its room, and that only closing closes it. -/

namespace ReadAhead
namespace Ring

@[simp] theorem isClosed_put (r : Ring) (data : ByteArray) : (r.put data).isClosed = r.isClosed := by
  simp [put, isClosed]

theorem isClosed_append (r : Ring) (data : ByteArray) : (r.append data).ring.isClosed = r.isClosed := by
  unfold append
  split
  · rfl
  · split <;> simp

theorem free_append {r : Ring} {data : ByteArray} {n : Nat} (h : (r.append data).answer = .ok n) :
    (r.append data).ring.free = r.free - data.size := by
  unfold append at h ⊢
  split
  · rename_i cause hr
    rw [hr] at h
    cases h
  · split
    · simp_all
    · simp only [free, isClosed_put]
      split
      · simp
      · simp only [put]
        omega

theorem isClosed_finish (r : Ring) : r.finish.ring.isClosed = r.isClosed := by
  unfold finish
  split <;> rfl

theorem isClosed_readAt (r : Ring) (n position : Nat) : (r.readAt n position).ring.isClosed = r.isClosed := by
  unfold readAt
  split
  · rfl
  · split
    · rfl
    · split <;> rfl

theorem isClosed_reset (r : Ring) (start : Nat) : (r.reset start).ring.isClosed = r.isClosed := by
  unfold reset
  split <;> rfl

end Ring

end ReadAhead
