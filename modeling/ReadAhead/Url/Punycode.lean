/-! The form of a label of a domain name that has characters beyond ASCII: its ASCII characters, a hyphen,
    and for each other character, in the order of their numbers, how far it lies from the one before, in
    digits of varying weight. -/

namespace ReadAhead
namespace Url
namespace Punycode

/-- The bias that the first distance is written with. -/
def firstBias : Nat := 72

/-- The letter or figure for a digit below 36. -/
def digit (d : Nat) : Char := if d < 26 then Char.ofNat ('a'.toNat + d) else Char.ofNat ('0'.toNat + (d - 26))

/-- The digit that a letter or figure stands for. -/
def value? (c : Char) : Option Nat :=
  if c.isDigit then some (c.toNat - '0'.toNat + 26)
  else if c.isAlpha then some (c.toLower.toNat - 'a'.toNat)
  else none

/-- The least digit of place `k`, counted from one, that another digit follows. -/
def threshold (bias k : Nat) : Nat := min 26 (max 1 (36 * k - bias))

/-- The least digit that another follows lies between 1 and 26. -/
theorem threshold_bounds (bias k : Nat) : 1 ≤ threshold bias k ∧ threshold bias k ≤ 26 := by
  unfold threshold
  omega

/-- Counts how often `delta` is divided by 35 until it is small, 36 for each time. -/
def shrink (delta : Nat) : Nat × Nat :=
  if 455 < delta then
    let (k, d) := shrink (delta / 35)
    (k + 36, d)
  else (0, delta)
termination_by delta
decreasing_by omega

/-- The bias after a distance of `delta`, with `count` characters placed. -/
def adapt (delta count : Nat) (first : Bool) : Nat :=
  let delta := if first then delta / 700 else delta / 2
  let (k, d) := shrink (delta + delta / count)
  k + 36 * d / (d + 38)

/-! ### Writing -/

/-- A distance in digits, from place `k` on. -/
def distance (bias k n : Nat) : List Char :=
  let t := threshold bias k
  if n < t then [digit n] else digit (t + (n - t) % (36 - t)) :: distance bias (k + 1) ((n - t) / (36 - t))
termination_by n
decreasing_by
  have h := threshold_bounds bias k
  exact Nat.lt_of_le_of_lt (Nat.div_le_self _ _) (by omega)

/-- Where the writer of a label is. -/
structure Writer where
  delta : Nat
  bias : Nat
  placed : Nat
  out : List Char

/-- Passes one character of the label while those numbered `n` are being placed. -/
def Writer.pass (basic n : Nat) (w : Writer) (c : Char) : Writer :=
  if c.toNat < n then { w with delta := w.delta + 1 }
  else if c.toNat = n then
    { delta := 0
      bias := adapt w.delta (w.placed + 1) (w.placed == basic)
      placed := w.placed + 1
      out := w.out ++ distance w.bias 1 w.delta }
  else w

def encode (label : List Char) : List Char :=
  let basic := label.filter (·.toNat < 0x80)
  let others := ((label.filter (0x80 ≤ ·.toNat)).map Char.toNat).mergeSort.eraseReps
  let start : Writer := ⟨0, firstBias, basic.length, basic ++ if basic.isEmpty then [] else ['-']⟩
  let (_, w) := others.foldl
    (fun (next, w) n =>
      let w := label.foldl (Writer.pass basic.length n) { w with delta := w.delta + (n - next) * (w.placed + 1) }
      (n + 1, { w with delta := w.delta + 1 }))
    (0x80, start)
  w.out

/-! ### Reading -/

/-- Reads a distance from place `k` on, the digit there having the weight `weight`. -/
def readDistance (bias : Nat) : List Char → (k weight : Nat) → Option (Nat × List Char)
  | [], _, _ => none
  | c :: cs, k, weight => do
    let d ← value? c
    let t := threshold bias k
    if d < t then some (d * weight, cs)
    else
      let (n, rest) ← readDistance bias cs (k + 1) (weight * (36 - t))
      some (d * weight + n, rest)

theorem length_readDistance {bias : Nat} {cs : List Char} {k weight n : Nat} {rest : List Char}
    (h : readDistance bias cs k weight = some (n, rest)) : rest.length < cs.length := by
  induction cs generalizing k weight n with
  | nil => simp [readDistance] at h
  | cons c cs ih =>
    simp only [readDistance, Option.bind_eq_bind, Option.bind_eq_some_iff] at h
    obtain ⟨d, _, h⟩ := h
    split at h
    · obtain ⟨_, rfl⟩ := by simpa using h
      simp
    · obtain ⟨⟨m, r⟩, hr, h⟩ := Option.bind_eq_some_iff.mp h
      obtain ⟨_, rfl⟩ := by simpa using h
      have := ih hr
      simp
      omega

/-- Places the characters whose distances `cs` holds into `out`, going on from place `i` and number `n`. -/
def place (cs : List Char) (i n bias : Nat) (out : List Char) : Option (List Char) :=
  match _h : cs with
  | [] => some out
  | _ :: _ =>
    match _hd : readDistance bias cs 1 1 with
    | none => none
    | some (d, rest) =>
      let count := out.length + 1
      let n := n + (i + d) / count
      let i' := (i + d) % count
      if n.isValidChar then
        place rest (i' + 1) n (adapt d count (i == 0)) (out.take i' ++ Char.ofNat n :: out.drop i')
      else none
termination_by cs.length
decreasing_by
  have := length_readDistance _hd
  simp_all

/-- The label that an encoded form stands for. -/
def decode (cs : List Char) : Option (List Char) :=
  let basic := ((cs.reverse.dropWhile (· != '-')).drop 1).reverse
  let rest := cs.drop (if basic.isEmpty then 0 else basic.length + 1)
  place rest 0 0x80 firstBias basic

end Punycode
end Url
end ReadAhead
