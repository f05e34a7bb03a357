import ReadAhead.Proofs.Session.Result
import ReadAhead.Proofs.Session.Waiting

/-! Whoever waits for a read, gets its result. A read that has the turn when nothing else can happen waits for
    its deadline at the latest, so time moves on until it is over; and a read that nobody gives up is over
    with a result (`Sound.isSome_read`). -/

namespace ReadAhead

/-- Whether the task is a read that was not given up. -/
def Task.isKept : Task → Bool
  | .read r => match r.phase with
    | .abandoned => false
    | _ => true
  | .close _ => false

@[simp] theorem Task.isKept_wake (t : Task) : t.wake.isKept = t.isKept := by
  rcases t with ⟨len, position, wait, deadline, phase⟩ | c
  · cases phase <;> rfl
  · rfl

/-- A read that is over and was not given up has a result. -/
theorem Task.isSome_result? {t : Task} (hkept : t.isKept = true) (hover : t.isOver = true) : t.result?.isSome = true := by
  rcases t with ⟨len, position, wait, deadline, phase⟩ | c
  · cases phase with
    | queued => cases hover
    | replacing old => cases hover
    | waiting last woken => cases hover
    | done result => rfl
    | abandoned => cases hkept
  · cases hkept

namespace Session
variable {σ : Type} {origin : Origin σ} {terms : Nat → Origin.Terms} {s t : Session σ} {i last : Nat} {r : Reading}

/-! ### Reads end -/

/-- When nothing happens any more, nobody stands in line. -/
theorem Sound.turns_eq_nil (h : Sound origin terms s) (hend : s.event? none = none) : s.turns = [] := by
  have hrest := isSettled_of_event? hend
  have hdue : s.nextDue? = none := by
    have hnext : s.next? = none := hrest
    cases hdue : s.nextDue? with
    | none => rfl
    | some due => simp [event?, hnext, hdue] at hend
  cases hhead : s.turns.head? with
  | none => exact List.head?_eq_none_iff.mp hhead
  | some i =>
    -- The first in line has a deadline ahead.
    exfalso
    obtain ⟨r, last, hi, hp, hdeadline⟩ := h.exists_read_of_isSettled hrest hhead
    have htimer : r.deadline ∈ s.timers :=
      List.mem_append_right _ (List.mem_filterMap.mpr ⟨_, List.mem_of_getElem? hi, by simp [deadline?, hp]⟩)
    exact nextDue?_eq_none hdue _ htimer hdeadline

/-- A task that is waited for is over in the end. -/
theorem Sound.isOver_run (h : Sound origin terms s) (hoffers : Offers origin terms s.stream) (i : Nat) :
    (s.run origin none fun t => t.isOver i).isOver i = true := by
  rcases run_ends origin none (fun t => t.isOver i) s with henough | hend
  · exact henough
  · obtain ⟨hsound, -⟩ := h.reaches hoffers (reaches_run origin none (fun t => t.isOver i) s)
    have hnil := hsound.turns_eq_nil hend
    generalize s.run origin none (fun t => t.isOver i) = u at hsound hnil ⊢
    rw [Session.isOver, Option.all_eq_true]
    intro task hi
    cases hover : task.isOver with
    | true => rfl
    | false =>
      have hmem := (hsound.lined.mem_iff i).mpr ⟨task, hi, hover⟩
      rw [hnil] at hmem
      cases hmem

/-! ### Reads are not given up -/

/-- Task `i` is a read that was not given up. -/
def Keeps (s : Session σ) (i : Nat) : Prop := ∃ x, s.tasks[i]? = some x ∧ x.isKept = true

theorem Spares.keeps {j : Nat} (h : Spares s t j) (hij : i ≠ j) (hk : s.Keeps i) : t.Keeps i := by
  obtain ⟨x, hx, hkept⟩ := hk
  obtain ⟨woke, ht⟩ := h.others i hij
  rw [hx] at ht
  refine ⟨_, ht, ?_⟩
  cases woke <;> simpa using hkept

theorem keeps_set (u : Session σ) {x : Task} (hlt : i < u.tasks.length) (hkept : x.isKept = true)
    (ht : t.tasks = u.tasks.set i x) : t.Keeps i :=
  ⟨x, by rw [ht, List.getElem?_set_self hlt], hkept⟩

theorem Looked.keeps (hlt : i < s.tasks.length) (hl : Looked s i r last t) : t.Keeps i := by
  cases hl with
  | @served _ _ _ bytes left _ =>
    refine keeps_set ((s.setRing left true).note .ready) ?_ rfl rfl
    simpa [tasks_setRing] using hlt
  | late => exact keeps_set (s.note .filling) (by simpa using hlt) rfl rfl
  | waits => exact keeps_set (s.note .filling) (by simpa using hlt) rfl rfl
  | closed => exact keeps_set s hlt rfl rfl
  | shut => exact keeps_set s hlt rfl rfl
  | short => exact keeps_set s hlt rfl rfl

theorem ReadTurn.keeps (hlt : i < s.tasks.length) (ht : ReadTurn origin s i r t) : t.Keeps i := by
  cases ht with
  | closed => exact keeps_set s hlt rfl rfl
  | dismiss => exact keeps_set s hlt rfl rfl
  | restart _ hr =>
    cases hr with
    | shut => exact keeps_set s hlt rfl rfl
    | refused =>
      exact keeps_set ((s.rebound (s.restartAt r)).note .idle) (by simpa using hlt) rfl rfl
    | connected _ _ hlook => exact hlook.keeps (by simpa using hlt)
  | look _ hl => exact hl.keeps hlt
  | late => exact keeps_set s hlt rfl rfl

theorem Sound.keeps_move {m : Mover} (h : Sound origin terms s) (hm : s.CanMove m) (hk : s.Keeps i) :
    (s.move origin m).Keeps i := by
  by_cases hmi : m = .task i
  · subst hmi
    obtain ⟨x, hx, hkept⟩ := hk
    have hlt : i < s.tasks.length := (List.getElem?_eq_some_iff.mp hx).1
    cases x with
    | read r =>
      rw [Session.move, Session.turn, hx]
      exact (h.readTurn hx hm.2).keeps hlt
    | close c => cases hkept
  · obtain ⟨j, hij, hspares⟩ := exists_spares_move origin s hmi
    exact hspares.keeps hij hk

theorem Sound.keeps_run (h : Sound origin terms s) (hoffers : Offers origin terms s.stream) (limit : Option Nat)
    (enough : Session σ → Bool) (hk : s.Keeps i) : (s.run origin limit enough).Keeps i := by
  fun_induction run origin limit enough s with
  | case1 s henough => exact hk
  | case2 s henough hnone => exact hk
  | case3 s henough e he ih =>
    -- The induction is on the recursion of the run; `Sound` goes along, since only then a turn is a `ReadTurn`.
    have hstep : Step origin s (s.happen origin e) := step_happen he
    refine ih (h.step hoffers hstep) (hstep.stream ▸ hoffers) ?_
    cases occurs he with
    | step hm => exact h.keeps_move (canMove_of_next? hm) hk
    | wait => exact hk

theorem keeps_start (s : Session σ) (len position : Nat) (timeout : Option Duration) :
    (s.start len position timeout).Keeps s.tasks.length := by
  unfold Session.start
  simp only
  split
  · exact ⟨_, List.getElem?_concat_length, rfl⟩
  · split
    · exact ⟨_, List.getElem?_concat_length, rfl⟩
    · split
      · exact ⟨_, List.getElem?_concat_length, rfl⟩
      · exact ⟨_, List.getElem?_concat_length, rfl⟩

/-- A read that is waited for comes to a result. -/
theorem Sound.isSome_read (h : Sound origin terms s) (hoffers : Offers origin terms s.stream) (len position : Nat)
    (timeout : Option Duration) : (s.read origin len position timeout).1.isSome = true := by
  have hstart := h.start len position timeout
  have hstream : (s.start len position timeout).stream = s.stream := stream_act (.start len position timeout) s
  have hstarted : Offers origin terms (s.start len position timeout).stream := hstream ▸ hoffers
  have hkeeps := hstart.keeps_run hstarted none (fun t => t.isOver s.tasks.length) (keeps_start s len position timeout)
  obtain ⟨x, hx, hkept⟩ := hkeeps
  have hover : x.isOver = true := by
    have hrun := hstart.isOver_run hstarted s.tasks.length
    rwa [Session.isOver, hx] at hrun
  have hend := over_of_reaches (reaches_settle origin _) hx hover
  have hresult : (s.read origin len position timeout).1 = x.result? := result?_of_task hend
  rw [hresult]
  exact Task.isSome_result? hkept hover

end Session
end ReadAhead
