import Mathlib.Data.List.Sort
import ReadAhead.Tier

/-! Which tier a policy picks. The pick is told by two things that the order of the table has no part in but
    for ties: the least file size of the rules that admit the file (`threshold?`), and the first of the
    rules of that size. Putting a table in order keeps the rules of one size in theirs, so it changes no
    pick. -/

namespace ReadAhead

/-! ### Lists in order -/

section Lists
variable {a x : Nat} {xs done : List Nat}

theorem mem_eraseReps_loop : x ∈ List.eraseRepsBy.loop (· == ·) a xs done ↔ x = a ∨ x ∈ xs ∨ x ∈ done := by
  induction xs generalizing a done with
  | nil => simp [List.eraseRepsBy.loop, or_comm]
  | cons b xs ih =>
    rw [List.eraseRepsBy.loop]
    split
    · rename_i hsame
      have hb : a = b := beq_iff_eq.mp hsame
      rw [ih, List.mem_cons, hb]
      tauto
    · rw [ih, List.mem_cons, List.mem_cons]
      tauto

theorem pairwise_eraseReps_loop (hxs : (a :: xs).Pairwise (· ≤ ·)) (hdone : (a :: done).Pairwise (· > ·)) :
    (List.eraseRepsBy.loop (· == ·) a xs done).Pairwise (· < ·) := by
  induction xs generalizing a done with
  | nil => exact List.pairwise_reverse.mpr hdone
  | cons b xs ih =>
    obtain ⟨hle, hrest⟩ := List.pairwise_cons.mp hxs
    rw [List.eraseRepsBy.loop]
    split
    · exact ih (hxs.sublist (by simp)) hdone
    · rename_i hne
      have hlt : a < b := Nat.lt_of_le_of_ne (hle b List.mem_cons_self) (by simpa using hne)
      refine ih hrest (List.pairwise_cons.mpr ⟨fun y hy => ?_, hdone⟩)
      rcases List.mem_cons.mp hy with rfl | hy
      · exact hlt
      · exact Nat.lt_trans ((List.pairwise_cons.mp hdone).1 y hy) hlt

theorem mem_eraseReps : x ∈ xs.eraseReps ↔ x ∈ xs := by
  cases xs with
  | nil => rfl
  | cons a xs => rw [List.eraseReps, List.eraseRepsBy, mem_eraseReps_loop]; simp

theorem pairwise_eraseReps (h : xs.Pairwise (· ≤ ·)) : xs.eraseReps.Pairwise (· < ·) := by
  cases xs with
  | nil => exact List.Pairwise.nil
  | cons a xs => exact pairwise_eraseReps_loop h (List.pairwise_singleton _ _)

end Lists

namespace TierPolicy
variable {p : TierPolicy} {rules : List TierRule} {rule : TierRule} {fileSize size : Nat}

/-- The least file size of the rules that admit a file of `fileSize` bytes. -/
def threshold? (rules : List TierRule) (fileSize : Nat) : Option Nat :=
  ((rules.map TierRule.maxFileSize).filter (fileSize ≤ ·)).min?

/-- The better of the best rule so far and the next one, which has to be for smaller files. -/
def better (best next : TierRule) : TierRule := if next.maxFileSize < best.maxFileSize then next else best

theorem maxFileSize_better (best next : TierRule) :
    (better best next).maxFileSize = min best.maxFileSize next.maxFileSize := by
  unfold better
  split <;> omega

theorem maxFileSize_foldl_better (best : TierRule) (rules : List TierRule) :
    (rules.foldl better best).maxFileSize = (rules.map TierRule.maxFileSize).foldl min best.maxFileSize := by
  induction rules generalizing best with
  | nil => rfl
  | cons next rules ih => rw [List.foldl_cons, ih, maxFileSize_better, List.map_cons, List.foldl_cons]

theorem maxFileSize_foldl_better_le (best : TierRule) (rules : List TierRule) :
    (rules.foldl better best).maxFileSize ≤ best.maxFileSize := by
  induction rules generalizing best with
  | nil => exact Nat.le_refl _
  | cons next rules ih =>
    have hstep := ih (better best next)
    rw [maxFileSize_better] at hstep
    exact Nat.le_trans hstep (Nat.min_le_left _ _)

/-- The best of some rules is the first of its size. -/
theorem find?_foldl_better (best : TierRule) (rules : List TierRule) :
    (best :: rules).find? (·.maxFileSize = (rules.foldl better best).maxFileSize) = some (rules.foldl better best) := by
  induction rules generalizing best with
  | nil => simp
  | cons next rules ih =>
    have hrest := ih (better best next)
    have hle := maxFileSize_foldl_better_le (better best next) rules
    rw [List.foldl_cons]
    by_cases hnext : next.maxFileSize < best.maxFileSize
    · have hbetter : better best next = next := if_pos hnext
      rw [hbetter] at hrest hle ⊢
      rw [List.find?_cons_of_neg (by simp only [decide_eq_true_eq]; omega), hrest]
    · have hbetter : better best next = best := if_neg hnext
      rw [hbetter] at hrest hle ⊢
      by_cases hbest : best.maxFileSize = (rules.foldl better best).maxFileSize
      · rw [List.find?_cons_of_pos (by simpa using hbest)] at hrest ⊢
        exact hrest
      · rw [List.find?_cons_of_neg (by simpa using hbest)] at hrest ⊢
        rw [List.find?_cons_of_neg (by simp only [decide_eq_true_eq]; omega), hrest]

theorem ruleFor_of_cons {best : TierRule} (h : (p.rules.filter fun r => fileSize ≤ r.maxFileSize) = best :: rules) :
    p.ruleFor fileSize = some (rules.foldl better best) := by
  rw [ruleFor, h, List.foldl_cons]
  clear h
  induction rules generalizing best with
  | nil => rfl
  | cons next rules ih =>
    rw [List.foldl_cons, List.foldl_cons, ← ih]
    congr 1
    exact (apply_ite some _ _ _).symm

theorem threshold?_eq (rules : List TierRule) (fileSize : Nat) :
    threshold? rules fileSize = ((rules.filter fun r => fileSize ≤ r.maxFileSize).map TierRule.maxFileSize).min? := by
  rw [threshold?, List.filter_map]
  rfl

theorem threshold?_eq_some_iff :
    threshold? rules fileSize = some size ↔
      fileSize ≤ size ∧ (∃ r ∈ rules, r.maxFileSize = size) ∧ ∀ r ∈ rules, fileSize ≤ r.maxFileSize → size ≤ r.maxFileSize := by
  rw [threshold?, List.min?_eq_some_iff]
  simp only [List.mem_filter, List.mem_map, decide_eq_true_eq, and_imp, forall_exists_index, forall_apply_eq_imp_iff₂]
  tauto

/-- The rule picked is the first one of the least size that admits the file. -/
theorem ruleFor_eq (p : TierPolicy) (fileSize : Nat) :
    p.ruleFor fileSize = (threshold? p.rules fileSize).bind fun size => p.rules.find? (·.maxFileSize = size) := by
  rw [threshold?_eq]
  cases hrules : p.rules.filter fun r => fileSize ≤ r.maxFileSize with
  | nil =>
    rw [ruleFor, hrules]
    rfl
  | cons best rules =>
    have hfirst := find?_foldl_better best rules
    have hadmits : fileSize ≤ (rules.foldl better best).maxFileSize := by
      have hmem := List.mem_of_find?_eq_some hfirst
      rw [← hrules] at hmem
      simpa using (List.mem_filter.mp hmem).2
    rw [ruleFor_of_cons hrules, List.map_cons, List.min?_cons', ← maxFileSize_foldl_better, Option.bind_some, ← hfirst,
      ← hrules, List.find?_filter]
    congr 1
    funext r
    rw [decide_eq_decide, decide_eq_true_eq, decide_eq_true_eq]
    omega

theorem maxFileSize_ruleFor (p : TierPolicy) (fileSize : Nat) :
    (p.ruleFor fileSize).map TierRule.maxFileSize = threshold? p.rules fileSize := by
  rw [ruleFor_eq]
  cases hsize : threshold? p.rules fileSize with
  | none => rfl
  | some size =>
    obtain ⟨-, ⟨r, hr, hsame⟩, -⟩ := threshold?_eq_some_iff.mp hsize
    rw [Option.bind_some]
    cases hfind : p.rules.find? (·.maxFileSize = size) with
    | none => exact absurd hsame (by simpa using List.find?_eq_none.mp hfind r hr)
    | some found => simpa using List.find?_some hfind

/-! ### The order of the table -/

theorem threshold?_perm {rules' : List TierRule} (h : rules'.Perm rules) :
    threshold? rules' fileSize = threshold? rules fileSize := by
  ext size
  rw [threshold?_eq_some_iff, threshold?_eq_some_iff]
  simp only [h.mem_iff]

/-- Rules of one size are in the order in which they were given. -/
theorem filter_mergeSort (rules : List TierRule) (size : Nat) :
    (rules.mergeSort fun a b => a.maxFileSize ≤ b.maxFileSize).filter (·.maxFileSize = size) =
      rules.filter (·.maxFileSize = size) := by
  have hperm := rules.mergeSort_perm fun a b => a.maxFileSize ≤ b.maxFileSize
  have hsame : (rules.filter (·.maxFileSize = size)).Pairwise fun a b => decide (a.maxFileSize ≤ b.maxFileSize) = true := by
    refine List.pairwise_of_forall_mem_list fun a ha b hb => ?_
    have ha := (List.mem_filter.mp ha).2
    have hb := (List.mem_filter.mp hb).2
    simp_all
  have hkept := List.sublist_mergeSort (by intro a b c; simp; omega) (by intro a b; simp; omega) hsame List.filter_sublist
  have htwice := hkept.filter (·.maxFileSize = size)
  rw [List.filter_filter] at htwice
  simp only [Bool.and_self] at htwice
  exact (htwice.eq_of_length (hperm.filter _).length_eq.symm).symm

theorem ruleFor_withRules (p : TierPolicy) (rules : List TierRule) (fileSize : Nat) :
    (p.withRules rules).ruleFor fileSize = { p with rules }.ruleFor fileSize := by
  rw [ruleFor_eq, ruleFor_eq]
  simp only [withRules, threshold?_perm (rules.mergeSort_perm _), ← List.head?_filter, filter_mergeSort]

theorem tierFor_withRules (p : TierPolicy) (rules : List TierRule) (fileSize : Nat) :
    (p.withRules rules).tierFor fileSize = { p with rules }.tierFor fileSize := by
  unfold tierFor
  rw [ruleFor_withRules]
  rfl

/-- A larger file is not picked a rule for smaller files. -/
theorem threshold?_mono {larger size' : Nat} (h : fileSize ≤ larger) (hlarger : threshold? rules larger = some size') :
    ∃ size, threshold? rules fileSize = some size ∧ size ≤ size' := by
  obtain ⟨hle, ⟨r, hr, rfl⟩, -⟩ := threshold?_eq_some_iff.mp hlarger
  have hadmits : r.maxFileSize ∈ (rules.map TierRule.maxFileSize).filter (fileSize ≤ ·) := by
    rw [List.mem_filter]
    exact ⟨List.mem_map_of_mem hr, by simpa using Nat.le_trans h hle⟩
  cases hsize : threshold? rules fileSize with
  | none =>
    rw [threshold?, List.min?_eq_none_iff] at hsize
    rw [hsize] at hadmits
    cases hadmits
  | some size =>
    obtain ⟨-, -, hleast⟩ := threshold?_eq_some_iff.mp hsize
    exact ⟨size, rfl, hleast r hr (Nat.le_trans h hle)⟩

/-! ### Capacities and margins -/

theorem capacity_mem_capacities (p : TierPolicy) (fileSize : Nat) : (p.tierFor fileSize).capacity ∈ p.capacities := by
  rw [capacities, mem_eraseReps, List.mem_mergeSort, List.mem_append, List.mem_map, List.mem_singleton]
  simp only [tierFor, Tier.of]
  cases hrule : p.ruleFor fileSize with
  | none => exact Or.inr rfl
  | some rule =>
    rw [ruleFor_eq] at hrule
    obtain ⟨size, -, hfind⟩ := Option.bind_eq_some_iff.mp hrule
    exact Or.inl ⟨rule, List.mem_of_find?_eq_some hfind, rfl⟩

theorem pairwise_capacities (p : TierPolicy) : p.capacities.Pairwise (· < ·) :=
  pairwise_eraseReps (List.pairwise_mergeSort' (· ≤ ·) _)

theorem margin_le (p : TierPolicy) (fileSize : Nat) : (p.tierFor fileSize).margin ≤ p.maxMargin := by
  simp only [tierFor, Tier.of, marginFor]
  omega

theorem margin_lt {p : TierPolicy} (h : 0 < (p.tierFor fileSize).capacity) :
    (p.tierFor fileSize).margin < (p.tierFor fileSize).capacity := by
  simp only [tierFor, Tier.of] at h ⊢
  omega

/-- The tier picked from a table put in order is the tier picked from the table as it is: the capacity of
    the first of the rules of the least size that admits the file, else the fallback. The size of the rule
    picked grows with the file. The capacity is one of the list, each there once and the least first, and
    the margin keeps below its limit and below the capacity. -/
theorem picks_whatever_the_order (p : TierPolicy) (rules : List TierRule) (fileSize : Nat) :
    let q := { p with rules }
    (p.withRules rules).tierFor fileSize = q.tierFor fileSize ∧
      (q.tierFor fileSize).capacity =
        (((threshold? rules fileSize).bind fun size => rules.find? (·.maxFileSize = size)).map TierRule.capacity).getD
          p.fallbackCapacity ∧
      (∀ larger later, fileSize ≤ larger → q.ruleFor larger = some later →
        ∃ rule, q.ruleFor fileSize = some rule ∧ rule.maxFileSize ≤ later.maxFileSize) ∧
      (q.tierFor fileSize).capacity ∈ q.capacities ∧ q.capacities.Pairwise (· < ·) ∧
      (q.tierFor fileSize).margin ≤ q.maxMargin ∧
      (0 < (q.tierFor fileSize).capacity → (q.tierFor fileSize).margin < (q.tierFor fileSize).capacity) := by
  intro q
  refine ⟨tierFor_withRules p rules fileSize, ?_, fun larger later hle hlater => ?_, capacity_mem_capacities q fileSize,
    pairwise_capacities q, margin_le q fileSize, margin_lt⟩
  · exact congrArg (fun rule : Option TierRule => (rule.map TierRule.capacity).getD p.fallbackCapacity)
      (ruleFor_eq q fileSize)
  · have hlarger := maxFileSize_ruleFor q larger
    rw [hlater] at hlarger
    obtain ⟨size, hsize, hmono⟩ := threshold?_mono hle hlarger.symm
    obtain ⟨rule, hrule, rfl⟩ := Option.map_eq_some_iff.mp ((maxFileSize_ruleFor q fileSize).trans hsize)
    exact ⟨rule, hrule, hmono⟩

/-- Of two rules of one size the first is picked, though it comes behind a rule for larger files. -/
theorem first_of_two_is_picked :
    let rules := [⟨100, 70⟩, ⟨10, 50⟩, ⟨10, 60⟩]
    let q := { TierPolicy.standard with rules }
    (TierPolicy.standard.withRules rules).tierFor 4 = ⟨50, 3⟩ ∧
      (∃ rule, q.ruleFor 4 = some rule ∧ rule.maxFileSize ≤ 100) ∧ (q.tierFor 4).margin < (q.tierFor 4).capacity := by
  obtain ⟨hsame, -, hgrows, -, -, -, hbelow⟩ := picks_whatever_the_order .standard [⟨100, 70⟩, ⟨10, 50⟩, ⟨10, 60⟩] 4
  exact ⟨hsame.trans rfl, hgrows 50 ⟨100, 70⟩ (by decide) rfl, hbelow (by decide)⟩

end TierPolicy
end ReadAhead
