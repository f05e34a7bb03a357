import ReadAhead.Proofs.Session.Tasks

/-! No read outlives the ceiling. A read that stands in line looks at no clock, so what it waits there is not limited
    by its own timeout. But whoever has the turn was started before it, and so was to give up no later than the
    ceiling allows the read behind; and in a settled session the one that has the turn is not late. -/

namespace ReadAhead

/-- A clock of milliseconds that has not reached the end of a span, a part of one counted as one, is within it. -/
theorem Duration.lt_of_lt_millisUp {d : Duration} {now start : Nat} (h : now < start + d.millisUp) :
    now * perMilli < start * perMilli + d.nanos := by
  unfold millisUp perMilli at *
  omega

theorem Duration.millisUp_atMost_le (d limit : Duration) : (d.atMost limit).millisUp ≤ limit.millisUp :=
  Nat.div_le_div_right (Nat.add_le_add_right (Nat.min_le_right _ _) _)

/-- When the task gives up at the latest; a closing counts as if it had at the start. -/
def Task.limit : Task → Nat
  | .read r => r.deadline
  | .close _ => 0

@[simp] theorem Task.limit_wake (t : Task) : t.wake.limit = t.limit := by
  rcases t with ⟨len, position, wait, deadline, phase⟩ | c
  · cases phase <;> rfl
  · rfl

theorem Task.Onward.limit {old new : Task} (h : old.Onward new) : new.limit = old.limit := by
  cases h <;> rfl

namespace Session
variable {σ : Type} {origin : Origin σ} {may : Session σ → Act → Prop} {s s₀ t : Session σ} {i : Nat} {x new : Task}

/-- The limits of all tasks so far. -/
def limits (s : Session σ) : List Nat := s.tasks.map Task.limit

theorem limits_told {woke : Bool} (ht : t.tasks = s.tasks.map fun x => if woke then x.wake else x) :
    t.limits = s.limits := by
  rw [limits, limits, ht, List.map_map]
  congr 1
  funext x
  cases woke <;> simp

/-- The limits of the tasks stay, and those that are new are within the ceiling. -/
theorem TaskStep.limits (h : TaskStep may s t) : ∃ new, t.limits = s.limits ++ new ∧
    ∀ d ∈ new, d ≤ s.now + s.stream.maxReadTimeout.millisUp := by
  cases h with
  | told woke ht => exact ⟨[], by rw [List.append_nil, limits_told ht], fun d hd => nomatch hd⟩
  | @onward i x new woke hi hgo hnew ht =>
    refine ⟨[], ?_, fun d hd => nomatch hd⟩
    have htold : (s.tasks.map fun x => if woke then x.wake else x)[i]? = some (if woke then x.wake else x) := by
      rw [List.getElem?_map, hi]
      rfl
    have hsame : new.limit = (if woke then x.wake else x).limit := by
      rw [hnew.limit]
      cases woke <;> simp
    rw [List.append_nil, Session.limits, ht, map_set_of_eq htold hsame]
    exact limits_told (t := { s with tasks := _ }) rfl
  | @read r timeout hmay hdeadline ht hempty =>
    refine ⟨[r.deadline], ?_, fun d hd => ?_⟩
    · rw [Session.limits, ht, List.map_append]
      rfl
    · rw [List.mem_singleton.mp hd, hdeadline]
      exact Nat.add_le_add_left (Duration.millisUp_atMost_le _ _) _
  | @close c woke ht hshut =>
    refine ⟨[0], ?_, fun d hd => ?_⟩
    · rw [Session.limits, ht, List.map_append]
      exact congrArg (· ++ [0]) (limits_told (t := { s with tasks := _ }) rfl)
    · rw [List.mem_singleton.mp hd]
      exact Nat.zero_le _

theorem limits_start (s : Session σ) (len position : Nat) (timeout : Option Duration) :
    (s.start len position timeout).limits = s.limits ++ [s.now + (s.stream.waitFor timeout).millisUp] := by
  obtain ⟨r, -, -, hdeadline, ht, -⟩ := tasks_start s len position timeout
  rw [← hdeadline, limits, ht, List.map_append]
  rfl

/-! ### Runs -/

theorem Weave.now_le (h : Weave origin may s t) : s.now ≤ t.now := by
  cases h with
  | @move m _ => exact Nat.le_of_eq (now_move origin s m).symm
  | wait hle => exact hle
  | @act a _ =>
    rcases steady_or_closes a s with h | ⟨-, tasks, turns, he⟩
    · exact Nat.le_of_eq h.now.symm
    · rw [he]
      exact Nat.le_of_eq (spares_expire s 0).now.symm

theorem Orderly.limits_weaves (h : s.Orderly) (hweaves : Weaves origin may s t) : s.limits <+: t.limits := by
  induction hweaves with
  | refl => exact List.prefix_refl _
  | tail hsu hstep ih =>
    obtain ⟨new, hnew, -⟩ := ((h.weaves hsu).taskStep hstep).limits
    rw [hnew]
    exact ih.trans (List.prefix_append _ _)

/-- No task has a limit further off than the ceiling. -/
def Timely (s : Session σ) : Prop := ∀ d ∈ s.limits, d ≤ s.now + s.stream.maxReadTimeout.millisUp

theorem Timely.weaves (hs : s.Timely) (h : s.Orderly) (hweaves : Weaves origin may s t) : t.Timely := by
  induction hweaves with
  | refl => exact hs
  | tail hsu hstep ih =>
    obtain ⟨new, hnew, hceiling⟩ := ((h.weaves hsu).taskStep hstep).limits
    have hnow := hstep.now_le
    intro d hd
    rw [hstep.stream]
    rw [hnew] at hd
    refine Nat.le_trans ?_ (Nat.add_le_add_right hnow _)
    rcases List.mem_append.mp hd with hold | hadded
    · exact ih d hold
    · exact hceiling d hadded

/-- In a settled session whoever has the turn is a read that is not late, started before all others that are not over. -/
theorem Orderly.exists_head (h : s.Orderly) (hrest : s.IsSettled) (hi : s.tasks[i]? = some x)
    (hgo : x.isOver = false) : ∃ j r, s.turns.head? = some j ∧ j ≤ i ∧ s.tasks[j]? = some (.read r) ∧ s.now < r.deadline := by
  obtain ⟨j, -, hhead, hle, -⟩ := h.lined.exists_head hi hgo
  obtain ⟨r, last, hj, -, hdeadline⟩ := h.lined.exists_read_of_isSettled hrest hhead fun _ => h.freed hrest
  exact ⟨j, r, hhead, hle, hj, hdeadline⟩

/-- Let the owner of a new stream do what it likes and the steps be taken in any order. A read that is started is to
    give up when its own wait is over; and as long as it is not over, nobody who was started later has the turn, and
    no settled session is as late as the start of the read and the ceiling of the stream together. -/
theorem ends_within_ceiling {len position : Nat} {timeout : Option Duration} (hnew : IsNew s₀)
    (hs : Weaves origin (fun _ _ => True) s₀ s) (ht : Weaves origin (fun _ _ => True) (s.start len position timeout) t)
    (hrest : t.IsSettled) (hi : t.tasks[s.tasks.length]? = some x) (hgo : x.isOver = false) :
    x.limit = s.now + (s.stream.waitFor timeout).millisUp ∧ (∃ j, t.turns.head? = some j ∧ j ≤ s.tasks.length) ∧
      t.now * Duration.perMilli < s.now * Duration.perMilli + s₀.stream.maxReadTimeout.nanos := by
  have horderly : s.Orderly := hnew.orderly.weaves hs
  have hstarted := horderly.start len position timeout
  have hlimits : s.limits ++ [s.now + (s.stream.waitFor timeout).millisUp] <+: t.limits := by
    rw [← limits_start]
    exact hstarted.limits_weaves ht
  have hlimit : ∀ {j : Nat} {y : Task}, t.tasks[j]? = some y → j ≤ s.tasks.length →
      (s.limits ++ [s.now + (s.stream.waitFor timeout).millisUp])[j]? = some y.limit := by
    intro j y hj hle
    obtain ⟨later, hlater⟩ := hlimits
    have hlt : j < (s.limits ++ [s.now + (s.stream.waitFor timeout).millisUp]).length := by
      rw [List.length_append, limits, List.length_map, List.length_singleton]
      exact Nat.lt_succ_of_le hle
    rw [← List.getElem?_append_left hlt, hlater, limits, List.getElem?_map, hj]
    rfl
  have htimely : s.Timely := by
    refine Timely.weaves ?_ hnew.orderly hs
    intro d hd
    rw [limits, hnew.tasks_eq_nil] at hd
    cases hd
  obtain ⟨j, r, hhead, hle, hj, hdeadline⟩ := (hstarted.weaves ht).exists_head hrest hi hgo
  refine ⟨?_, ⟨j, hhead, hle⟩, ?_⟩
  · have hown := hlimit hi (Nat.le_refl _)
    rw [List.getElem?_append_right (by simp [limits]), limits, List.length_map, Nat.sub_self] at hown
    exact (Option.some.inj hown).symm
  · -- The one that has the turn was started by then, and so was to give up within the ceiling.
    have hceiling : r.deadline ≤ s.now + s.stream.maxReadTimeout.millisUp := by
      rcases List.mem_append.mp (List.mem_of_getElem? (hlimit hj hle)) with hold | hown
      · exact htimely _ hold
      · have hsame : r.deadline = _ := List.mem_singleton.mp hown
        rw [hsame]
        exact Nat.add_le_add_left (Duration.millisUp_atMost_le _ _) _
    rw [stream_weaves hs] at hceiling
    exact Duration.lt_of_lt_millisUp (Nat.lt_of_lt_of_le hdeadline hceiling)

/-- Another read, started while the first waits for the source, and two milliseconds later. -/
def inLine : Session Unit := { Session.start 1 0 none { justAsked with now := 2 } with now := 4 }

theorem in_line_within_ceiling :
    ∃ x, inLine.tasks[1]? = some x ∧ x.isQueued = true ∧ x.limit = 1002 ∧
      inLine.now * Duration.perMilli < 2 * Duration.perMilli + oneByte.maxReadTimeout.nanos := by
  obtain ⟨x, hx, hq⟩ : ∃ x, inLine.tasks[1]? = some x ∧ x.isQueued = true := ⟨_, rfl, rfl⟩
  have hnew : IsNew (onStorage (σ := Unit) oneByte (Bytes.ofFn 1 fun _ => 0) 0) := ⟨_, _, _, _, _, _, _, _, _, rfl, rfl⟩
  have hs : Weaves slow (fun _ _ => True) (onStorage oneByte (Bytes.ofFn 1 fun _ => 0) 0) { justAsked with now := 2 } :=
    (weaves_of_reaches reaches_justAsked).tail (.wait (Nat.zero_le 2))
  have ht : Weaves slow (fun _ _ => True) (Session.start 1 0 none { justAsked with now := 2 }) inLine :=
    .single (.wait (Nat.le_succ_of_le (Nat.le_succ 2)))
  obtain ⟨hlimit, -, hceiling⟩ := ends_within_ceiling hnew hs ht rfl hx (Task.isOver_eq_false_of_isQueued hq)
  exact ⟨x, hx, hq, hlimit, hceiling⟩

end Session
end ReadAhead
