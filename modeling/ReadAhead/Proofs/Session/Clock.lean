import ReadAhead.Proofs.Session.Sound

/-! Time passes in pieces. Up to the first moment that somebody waits for, nothing happens, so a session may be let alone
    up to there first and then for the rest of the time (`passUntil_wait`), as it may go through what happens next first
    (`passUntil_happen`). A session that has nothing to do until then stays as it is (`settle_of_isSettled`). -/

namespace ReadAhead

/-- A feed that gets something to do as time passes waited for a moment that has come. -/
theorem Feed.due?_of_isReady {σ : Type} {f : Feed σ} {now later : Nat} (hno : f.isReady now = false)
    (hready : f.isReady later = true) : ∃ due, f.due? = some due ∧ now < due ∧ due ≤ later := by
  unfold Feed.isReady at hno hready
  unfold Feed.due?
  split at hno
  · cases hno
  · rename_i due answer hp
    simp only [hp, Bool.or_eq_true, Bool.or_eq_false_iff, decide_eq_true_eq, decide_eq_false_iff_not, Nat.not_le] at hno hready
    obtain ⟨hgo, hahead⟩ := hno
    exact ⟨due, by rw [hp], hahead, hready.resolve_left (by simp [hgo])⟩
  · rename_i hp
    simp only [hp] at hready
    cases hno.symm.trans hready
  · rename_i hp
    simp only [hp] at hready
    cases hready

namespace Session
variable {σ : Type} {origin : Origin σ} {s : Session σ} {due time i : Nat}

/-- Nor does a task. -/
theorem deadline?_of_taskReady (hno : s.taskReady i = false) (hready : taskReady { s with now := due } i = true) :
    ∃ x d, s.tasks[i]? = some x ∧ deadline? x = some d ∧ s.now < d ∧ d ≤ due := by
  unfold taskReady at hno hready
  simp only at hready
  split at hno
  · rename_i r hi
    simp only [hi] at hready
    split at hno
    · cases hno
    · rename_i old hp
      simp only [hp] at hready
      cases hno.symm.trans hready
    · rename_i last woken hp
      simp only [hp, Bool.or_eq_true, Bool.or_eq_false_iff, decide_eq_true_eq, decide_eq_false_iff_not, Nat.not_le] at hno hready
      obtain ⟨hasleep, hahead⟩ := hno
      exact ⟨_, r.deadline, hi, by simp only [deadline?, hp], hahead, hready.resolve_left (by simp [hasleep])⟩
    · rename_i hp
      simp [hp] at hready
    · rename_i hp
      simp [hp] at hready
  · rename_i c hi
    simp only [hi] at hready
    split at hno
    · cases hno
    · cases hno.symm.trans hready
    · cases hready
  · rename_i hi
    simp [hi] at hready

/-- Before the first moment that somebody waits for, nobody can take a step. -/
theorem IsSettled.wait (h : s.IsSettled) (hfirst : ∀ x ∈ s.timers, s.now < x → due < x) :
    IsSettled { s with now := due } := by
  cases hnext : Session.next? { s with now := due } with
  | none => exact hnext
  | some m =>
    exfalso
    have hm := canMove_of_next? hnext
    have hno := h.not_canMove m
    cases m with
    | feed k =>
      obtain ⟨f, hk, hr⟩ := exists_of_feedReady hm
      have hidle : f.isReady s.now = false := by simpa [CanMove, feedReady, show s.feeds[k]? = some f from hk] using hno
      obtain ⟨d, hd, hahead, hle⟩ := Feed.due?_of_isReady hidle hr
      have htimer : d ∈ s.timers := List.mem_append_left _ (List.mem_filterMap.mpr ⟨f, List.mem_of_getElem? hk, hd⟩)
      exact Nat.not_lt.mpr hle (hfirst d htimer hahead)
    | task i =>
      obtain ⟨hhead, hready⟩ := hm
      have hidle : s.taskReady i = false := by
        cases hr : s.taskReady i with
        | false => rfl
        | true => exact absurd ⟨hhead, hr⟩ hno
      obtain ⟨x, d, hi, hd, hahead, hle⟩ := deadline?_of_taskReady hidle hready
      have htimer : d ∈ s.timers := List.mem_append_right _ (List.mem_filterMap.mpr ⟨x, List.mem_of_getElem? hi, hd⟩)
      exact Nat.not_lt.mpr hle (hfirst d htimer hahead)
    | stream => exact hno hm

/-- Nothing happens in a settled session before time moves. -/
theorem IsSettled.event? (h : s.IsSettled) : s.event? (some s.now) = none := by
  have hnext : s.next? = none := h
  simp only [Session.event?, hnext, Option.map_eq_none_iff]
  cases hdue : s.nextDue? with
  | none => rfl
  | some due => simp [Option.filter_some, Nat.not_le.mpr (lt_of_nextDue? hdue).1]

theorem settle_of_isSettled (h : s.IsSettled) : s.settle origin = s := run_of_event?_eq_none h.event?

theorem passUntil_now (h : s.IsSettled) : s.passUntil origin s.now = s := by
  rw [passUntil, run_of_event?_eq_none h.event?]
  simp only [Nat.max_self]

/-- A session that is let alone may go through what happens next first. -/
theorem passUntil_happen {e : Event} (h : s.event? (some time) = some e) :
    s.passUntil origin time = (s.happen origin e).passUntil origin time := by
  have hnow : max s.now time = max (s.happen origin e).now time := by
    cases occurs h with
    | step => rw [happen, now_move]
    | wait _ hahead _ hlimit =>
      have hle := hlimit time rfl
      simp only [happen]
      omega
  rw [passUntil, passUntil, run_of_event? rfl h, hnow]

theorem passUntil_move {m : Mover} (h : s.next? = some m) (time : Nat) :
    s.passUntil origin time = (s.move origin m).passUntil origin time :=
  passUntil_happen (e := .step m) (by simp only [Session.event?, h])

/-- A session with nothing to do may be let alone up to the first moment that somebody waits for, and then for the rest
    of the time. -/
theorem passUntil_wait (h : s.IsSettled) (hle : s.now ≤ due) (hfirst : ∀ x ∈ s.timers, s.now < x → due ≤ x)
    (htime : due ≤ time) : s.passUntil origin time = passUntil origin time { s with now := due } := by
  have hnext : s.next? = none := h
  by_cases hdue : due ∈ s.timers ∧ s.now < due
  · -- Somebody waits for that moment.
    have hnextDue : s.nextDue? = some due := by
      refine List.min?_eq_some_iff.mpr ⟨List.mem_filter.mpr ⟨hdue.1, by simpa using hdue.2⟩, fun x hx => ?_⟩
      obtain ⟨hx, hahead⟩ := List.mem_filter.mp hx
      exact hfirst x hx (by simpa using hahead)
    exact passUntil_happen (e := .wait due) (by simp [Session.event?, hnext, hnextDue, Option.filter_some, htime])
  · -- Nobody does, so the same happens next.
    have hbefore : ∀ x ∈ s.timers, s.now < x → due < x := by
      intro x hx hahead
      rcases Nat.lt_or_eq_of_le (hfirst x hx hahead) with hlt | rfl
      · exact hlt
      · exact absurd ⟨hx, hahead⟩ hdue
    have hevent : event? (some time) { s with now := due } = s.event? (some time) := by
      have hnext' : Session.next? { s with now := due } = none := h.wait hbefore
      have hsame : s.timers.filter (due < ·) = s.timers.filter (s.now < ·) :=
        List.filter_congr fun x hx => decide_eq_decide.mpr ⟨fun hlt => Nat.lt_of_le_of_lt hle hlt, hbefore x hx⟩
      have hnextDue : Session.nextDue? { s with now := due } = s.nextDue? := congrArg List.min? hsame
      simp only [Session.event?, hnext, hnext', hnextDue]
    cases he : s.event? (some time) with
    | none =>
      rw [passUntil, passUntil, run_of_event?_eq_none he, run_of_event?_eq_none (hevent.trans he)]
      simp only [Nat.max_eq_right (Nat.le_trans hle htime), Nat.max_eq_right htime]
    | some e =>
      rw [passUntil_happen he, passUntil_happen (hevent.trans he)]
      cases occurs he with
      | step hm => cases hnext.symm.trans hm
      | wait => rfl

end Session
end ReadAhead
