import ReadAhead.Proofs.Source.Terms

/-! The bytes of a source by their numbers. Asked for so many bytes again and again, a source gives byte number
    zero, one, two and so on, until it ends or fails (`Gives`). No two bytes have one number (`Gives.unique`);
    they are what the terms let it give that it honours (`Gives.allowed`), and it honours the terms that allow
    just them (`honours_given`). -/

namespace ReadAhead
namespace Origin
variable {σ : Type} {origin : Origin σ} {terms : Terms} {limit position k : Nat} {source x : σ} {b c : UInt8}

/-- Asked for `limit` bytes again and again, the source gives `b` as byte number `k`. -/
inductive Gives (origin : Origin σ) (limit : Nat) : σ → Nat → UInt8 → Prop
  | here {x : σ} {bytes : ByteArray} {k : Nat} {b : UInt8} (h : (origin.read x limit).answer = .ok bytes)
    (hb : bytes.data[k]? = some b) : Gives origin limit x k b
  | later {x : σ} {bytes : ByteArray} {k : Nat} {b : UInt8} (h : (origin.read x limit).answer = .ok bytes)
    (hpos : 0 < bytes.size) (hnext : Gives origin limit (origin.read x limit).next k b) :
    Gives origin limit x (bytes.size + k) b

theorem Gives.cases (h : origin.Gives limit x k b) :
    ∃ bytes, (origin.read x limit).answer = .ok bytes ∧
      (bytes.data[k]? = some b ∨
        ∃ n, k = bytes.size + n ∧ origin.Gives limit (origin.read x limit).next n b) := by
  cases h with
  | here h hb => exact ⟨_, h, Or.inl hb⟩
  | later h _ hnext => exact ⟨_, h, Or.inr ⟨_, rfl, hnext⟩⟩

theorem lt_size_of_getElem? {bytes : ByteArray} (h : bytes.data[k]? = some b) : k < bytes.size := by
  obtain ⟨hlt, -⟩ := Array.getElem?_eq_some_iff.mp h
  rwa [ByteArray.size_data] at hlt

theorem Gives.unique (h : origin.Gives limit x k b) (h' : origin.Gives limit x k c) : b = c := by
  induction h with
  | here h hb =>
    obtain ⟨bytes, hbytes, hc | ⟨n, rfl, -⟩⟩ := h'.cases
    · obtain rfl := Except.ok.inj (h.symm.trans hbytes)
      exact Option.some.inj (hb.symm.trans hc)
    · obtain rfl := Except.ok.inj (h.symm.trans hbytes)
      have hlt := lt_size_of_getElem? hb
      omega
  | later h _ _ ih =>
    obtain ⟨bytes, hbytes, hc | ⟨n, hn, hnext⟩⟩ := h'.cases
    · obtain rfl := Except.ok.inj (h.symm.trans hbytes)
      have hlt := lt_size_of_getElem? hc
      omega
    · obtain rfl := Except.ok.inj (h.symm.trans hbytes)
      obtain rfl := Nat.add_left_cancel hn
      exact ih hnext

/-- What a source gives is within the terms that it honours. -/
theorem Gives.allowed (h : origin.Gives limit x k b) (hhonours : origin.Honours terms limit position x) :
    terms.byte (position + k) b := by
  induction h generalizing position with
  | here h hb =>
    have hread := hhonours.read
    have hlt := lt_size_of_getElem? hb
    rw [h] at hread
    exact ((Terms.allow_bytes (by omega)).mp hread).1 _ _ hb
  | later h hpos _ ih =>
    have hread := hhonours.read
    rw [h] at hread
    rw [← Nat.add_assoc]
    exact ih ((Terms.allow_bytes hpos).mp hread).2

/-- The bytes from position `base` on are those that the source gives, and the data may end or the source fail
    anywhere. -/
def Terms.given (origin : Origin σ) (limit base : Nat) (source : σ) : Terms where
  byte := fun position b => origin.Gives limit source (position - base) b
  ends := fun _ => True
  fails := fun _ _ => True

theorem honours_given (origin : Origin σ) (limit base : Nat) (source : σ) :
    origin.Honours (.given origin limit base source) limit base source := by
  -- The source stands at a position if what it gives from there on is what the first one gives later.
  refine ⟨fun p x => base ≤ p ∧ ∀ k b, origin.Gives limit x k b → origin.Gives limit source (p - base + k) b,
    ⟨Nat.le_refl _, fun k b h => by rwa [Nat.sub_self, Nat.zero_add]⟩, ?_⟩
  rintro p x ⟨hp, hx⟩
  unfold Terms.Allow
  split
  · trivial
  · rename_i bytes hanswer
    split
    · trivial
    · refine ⟨fun i b hb => ?_, by omega, fun k b h => ?_⟩
      · have hgives := hx i b (.here hanswer hb)
        rwa [← Nat.sub_add_comm hp] at hgives
      · have hgives := hx _ b (.later hanswer (by omega) h)
        rwa [← Nat.add_assoc, ← Nat.sub_add_comm hp] at hgives

end Origin
end ReadAhead
