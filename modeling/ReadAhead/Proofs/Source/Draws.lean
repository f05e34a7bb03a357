import ReadAhead.Proofs.Source.Terms

/-! What a source has. Asked for so many bytes again and again, a source has given some bytes and become another
    source (`Draws`); when it answers without bytes, those were all of them (`Drains`). There is one answer to
    what comes in all (`Drains.unique`), but it may depend on how many bytes are asked for at once: asked for
    none, a source gives none. What a source has is what comes of it whenever it is asked for some (`Has`). -/

namespace ReadAhead
namespace Origin
variable {σ : Type} {origin : Origin σ} {limit : Nat} {source x : σ} {bytes rest other : List UInt8}

/-- Asked for `limit` bytes again and again, the source has given `bytes`, and is now `x`. -/
inductive Draws (origin : Origin σ) (limit : Nat) (source : σ) : List UInt8 → σ → Prop
  | none : Draws origin limit source [] source
  | more {bytes : List UInt8} {x : σ} {chunk : ByteArray} (h : Draws origin limit source bytes x)
    (hanswer : (origin.read x limit).answer = .ok chunk) (hpos : 0 < chunk.size) :
    Draws origin limit source (bytes ++ chunk.data.toList) (origin.read x limit).next

/-- Asked for `limit` bytes again and again, the source gives `bytes` and then comes to the end of the data. -/
inductive Drains (origin : Origin σ) (limit : Nat) : σ → List UInt8 → Prop
  | ended {x : σ} {chunk : ByteArray} (hanswer : (origin.read x limit).answer = .ok chunk) (hz : chunk.size = 0) :
    Drains origin limit x []
  | more {x : σ} {chunk : ByteArray} {bytes : List UInt8} (hanswer : (origin.read x limit).answer = .ok chunk)
    (hpos : 0 < chunk.size) (hrest : Drains origin limit (origin.read x limit).next bytes) :
    Drains origin limit x (chunk.data.toList ++ bytes)

/-- From where it stands to the end of its data the source has `bytes`, however many are asked for at once. -/
def Has (origin : Origin σ) (source : σ) (bytes : List UInt8) : Prop :=
  ∀ limit, 0 < limit → origin.Drains limit source bytes

theorem Draws.drains (h : origin.Draws limit source bytes x) (hrest : origin.Drains limit x rest) :
    origin.Drains limit source (bytes ++ rest) := by
  induction h generalizing rest with
  | none => exact hrest
  | more _ hanswer hpos ih =>
    rw [List.append_assoc]
    exact ih (.more hanswer hpos hrest)

theorem Drains.unique (h : origin.Drains limit x bytes) (h' : origin.Drains limit x other) : bytes = other := by
  induction h generalizing other with
  | ended hanswer hz =>
    cases h' with
    | ended => rfl
    | more hanswer' hpos =>
      obtain rfl := Except.ok.inj (hanswer.symm.trans hanswer')
      omega
  | more hanswer hpos _ ih =>
    cases h' with
    | ended hanswer' hz =>
      obtain rfl := Except.ok.inj (hanswer.symm.trans hanswer')
      omega
    | more hanswer' _ hrest =>
      obtain rfl := Except.ok.inj (hanswer.symm.trans hanswer')
      rw [ih hrest]

/-- Asked for none, a source gives none. -/
theorem Draws.eq_nil (h : origin.Draws 0 source bytes x) : bytes = [] := by
  cases h with
  | none => rfl
  | more _ hanswer hpos =>
    have hle := origin.read_le hanswer
    omega

/-- The file that counts has the bytes from where one starts to its end. -/
theorem counting_has {size : Nat} (start n : Nat) (hsize : start + n = size) :
    (counting size).Has start ((List.range' start n).map UInt8.ofNat) := by
  intro limit hlimit
  induction n generalizing start with
  | zero =>
    have hend : limit = 0 ∨ size ≤ start := Or.inr (by omega)
    have hread : (counting size).read start limit = ⟨0, .ok ByteArray.empty, start⟩ := if_pos hend
    exact .ended (by rw [hread]) rfl
  | succ n ih =>
    have hmore : ¬ (limit = 0 ∨ size ≤ start) := by omega
    have hread : (counting size).read start limit = ⟨0, .ok ⟨#[UInt8.ofNat start]⟩, start + 1⟩ := if_neg hmore
    have hanswer : ((counting size).read start limit).answer = .ok ⟨#[UInt8.ofNat start]⟩ := by rw [hread]
    refine .more hanswer Nat.one_pos ?_
    have hrest : start + 1 + n = size := by omega
    rw [hread]
    exact ih (start + 1) hrest

end Origin
end ReadAhead
