/-! Totals over lists: how a total and a count change when one member does. -/

namespace ReadAhead

def total : List Nat → Nat
  | [] => 0
  | n :: ns => n + total ns

@[simp] theorem total_nil : total [] = 0 := rfl

@[simp] theorem total_cons (n : Nat) (ns : List Nat) : total (n :: ns) = n + total ns := rfl

/-! ### Totals -/

theorem total_set {l : List Nat} {i a b : Nat} (h : l[i]? = some a) :
    total (l.set i b) + a = total l + b := by
  induction l generalizing i with
  | nil => simp at h
  | cons x l ih =>
    cases i with
    | zero => simp_all; omega
    | succ i =>
      have := ih (i := i) (by simpa using h)
      simp only [List.set_cons_succ, total_cons]
      omega

theorem total_map_le {α : Type} {f g : α → Nat} {l : List α} (h : ∀ x ∈ l, f x ≤ g x) :
    total (l.map f) ≤ total (l.map g) := by
  induction l with
  | nil => simp
  | cons x l ih =>
    have h1 := h x List.mem_cons_self
    have h2 := ih fun y hy => h y (List.mem_cons_of_mem x hy)
    simp only [List.map_cons, total_cons]
    omega

theorem total_map_const {α : Type} {f : α → Nat} {l : List α} {n : Nat} (h : ∀ x ∈ l, f x = n) :
    total (l.map f) = l.length * n := by
  induction l with
  | nil => rw [List.map_nil, total_nil, List.length_nil, Nat.zero_mul]
  | cons x l ih =>
    have h1 := h x List.mem_cons_self
    have h2 := ih fun y hy => h y (List.mem_cons_of_mem x hy)
    rw [List.map_cons, total_cons, h1, h2, List.length_cons, Nat.succ_mul, Nat.add_comm]

/-- Where one summand is no larger than its fellow, the sums differ at least as much as the two. -/
theorem total_map_le_sub {α : Type} {f g : α → Nat} {l : List α} (h : ∀ x ∈ l, f x ≤ g x) {i : Nat} {x : α}
    (hi : l[i]? = some x) : total (l.map f) + g x ≤ total (l.map g) + f x := by
  induction l generalizing i with
  | nil => simp at hi
  | cons y l ih =>
    have hy := h y List.mem_cons_self
    cases i with
    | zero =>
      obtain rfl : y = x := by simpa using hi
      have := total_map_le fun z hz => h z (List.mem_cons_of_mem y hz)
      simp only [List.map_cons, total_cons]
      omega
    | succ i =>
      have := ih (fun z hz => h z (List.mem_cons_of_mem y hz)) (i := i) (by simpa using hi)
      simp only [List.map_cons, total_cons]
      omega

/-! ### Counts -/

theorem countP_set {α : Type} {p : α → Bool} {l : List α} {i : Nat} {a b : α} (h : l[i]? = some a) :
    (l.set i b).countP p + (if p a then 1 else 0) = l.countP p + (if p b then 1 else 0) := by
  induction l generalizing i with
  | nil => simp at h
  | cons x l ih =>
    cases i with
    | zero => simp_all [List.countP_cons]; omega
    | succ i =>
      have := ih (i := i) (by simpa using h)
      simp only [List.set_cons_succ, List.countP_cons]
      omega

theorem countP_lt {α : Type} {p q : α → Bool} {l : List α} (hpq : ∀ x ∈ l, p x = true → q x = true) {x : α}
    (hx : x ∈ l) (hp : p x = false) (hq : q x = true) : l.countP p < l.countP q := by
  induction l with
  | nil => cases hx
  | cons y l ih =>
    have hle : l.countP p ≤ l.countP q :=
      List.countP_mono_left fun z hz => hpq z (List.mem_cons_of_mem y hz)
    simp only [List.countP_cons]
    rcases List.mem_cons.mp hx with rfl | hx
    · simp [hp, hq]
      omega
    · have h1 := ih (fun z hz => hpq z (List.mem_cons_of_mem y hz)) hx
      have h2 : (if p y then 1 else 0) ≤ (if q y then 1 else 0) := by
        by_cases hy : p y = true
        · simp [hy, hpq y List.mem_cons_self hy]
        · simp [hy]
      omega

/-- Where only the member at `k` can count, no more than one does. -/
theorem countP_le_one {α : Type} {p : α → Bool} {l : List α} {k : Nat} (h : ∀ i a, l[i]? = some a → p a = true → i = k) :
    l.countP p ≤ 1 := by
  induction l generalizing k with
  | nil => exact Nat.zero_le _
  | cons x l ih =>
    cases k with
    | zero =>
      have hnone : l.countP p = 0 := List.countP_eq_zero.mpr fun a ha hp => by
        obtain ⟨i, hi⟩ := List.mem_iff_getElem?.mp ha
        exact absurd (h (i + 1) a (by simpa using hi) hp) (Nat.succ_ne_zero i)
      rw [List.countP_cons, hnone, Nat.zero_add]
      split <;> simp
    | succ k =>
      have hx : ¬ p x = true := fun hp => absurd (h 0 x rfl hp).symm (Nat.succ_ne_zero k)
      rw [List.countP_cons_of_neg hx]
      exact ih fun i a hi hp => Nat.succ.inj (h (i + 1) a (by simpa using hi) hp)

end ReadAhead
