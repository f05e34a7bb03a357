import ReadAhead.Proofs.Session.Await
import ReadAhead.Proofs.Session.Weave

/-! Closing is final. In a closed session the ring is closed and every feed told to stop, so whatever a read was
    about, its next step ends it as closed (`ReadTurn.eq_of_closed`), and nothing else gives a result or starts
    a feed (`AfterClosing.weave`). What was waiting is woken, and no task waits for time to pass, so the
    session left alone comes to an end at which every read has its result. All this holds in whatever order
    the steps are taken. -/

namespace ReadAhead
namespace Session
variable {σ : Type} {origin : Origin σ} {terms : Nat → Origin.Terms} {s s₀ t u : Session σ} {i c : Nat}

/-- No feed serves the stream, and every feed has stopped. -/
structure Vacant (s : Session σ) : Prop where
  slot : s.slot = none
  stopped : ∀ f ∈ s.feeds, f.isStopped = true

theorem Quiet.vacant (h : Quiet s t) (hs : s.Vacant) : t.Vacant := ⟨h.slot hs.slot, h.stopped hs.stopped⟩

/-! ### Steps of a closed session -/

/-- In a closed session a read that has the turn ends as closed, wherever it was. -/
theorem ReadTurn.eq_of_closed {r : Reading} (hc : s.closed = true) (hshut : s.ring.isClosed = true)
    (ht : ReadTurn origin s i r t) : t = s.finish i r (.error .closed) := by
  cases ht with
  | closed => rfl
  | dismiss _ hopen => exact absurd hc (by simp [hopen])
  | restart _ hr =>
    cases hr with
    | shut => simp [ringFailure, hc]
    | refused hopen => exact absurd hshut (by simp [hopen])
    | connected hopen => exact absurd hshut (by simp [hopen])
  | look _ hl =>
    cases hl with
    | closed => rfl
    | shut hopen => exact absurd hc (by simp [hopen])
    | served hopen => exact absurd hc (by simp [hopen])
    | short hopen => exact absurd hc (by simp [hopen])
    | late hopen => exact absurd hc (by simp [hopen])
    | waits hopen => exact absurd hc (by simp [hopen])
  | late => simp [hc]

theorem Sound.readStep_of_closed {r : Reading} (h : Sound origin terms s) (hc : s.closed = true)
    (hi : s.tasks[i]? = some (.read r)) (hready : s.taskReady i = true) :
    s.readStep origin i r = s.finish i r (.error .closed) :=
  (h.readTurn hi hready).eq_of_closed hc (h.shut hc)

theorem Sound.quiet_move {m : Mover} (h : Sound origin terms s) (hc : s.closed = true) (hm : s.CanMove m) :
    Quiet s (s.move origin m) := by
  cases m with
  | feed k => exact quiet_feedStep hm
  | task i =>
    simp only [Session.move, Session.turn]
    split
    · rename_i r hi
      rw [h.readStep_of_closed hc hi hm.2]
      exact quiet_of_eq rfl rfl rfl rfl
    · exact quiet_closeStep _ _ _
    · exact quiet_of_eq rfl rfl rfl rfl
  | stream => exact quiet_expire s

theorem start_of_closed (hc : s.closed = true) (len position : Nat) (timeout : Option Duration) :
    ∃ r : Reading, r.phase = .done (.error .closed) ∧
      s.start len position timeout = { s with tasks := s.tasks ++ [.read r] } :=
  ⟨_, rfl, by rw [Session.start, if_pos hc]⟩

/-- Closing a closed stream is done at once and changes nothing. -/
theorem startClose_of_closed (hc : s.closed = true) : s.startClose = { s with tasks := s.tasks ++ [.close .done] } := by
  rw [startClose, if_pos hc]

/-- A result that is new in a closed session is that it is closed. -/
theorem Sound.refuses_move {m : Mover} {result : Except Failure Delivery} (h : Sound origin terms s) (hc : s.closed = true)
    (hm : s.CanMove m) (hs : s.result? i = none) (ht : (s.move origin m).result? i = some result) :
    result = .error .closed := by
  obtain ⟨r, hi, -, hready, he⟩ := gives_move hm hs ht
  rw [he, h.readStep_of_closed hc hi hready, finish_eq, result?_endTask (List.getElem?_eq_some_iff.mp hi).1] at ht
  exact (Option.some.inj ht).symm

theorem refuses_act {a : Act} {result : Except Failure Delivery} (hc : s.closed = true) (hs : s.result? i = none)
    (ht : (s.act a).result? i = some result) : result = .error .closed := by
  cases a with
  | start len position timeout =>
    obtain ⟨r, hr, he⟩ := start_of_closed hc len position timeout
    rw [act, he] at ht
    rcases result?_of_push (s := s) ht rfl with hold | ⟨-, hnew⟩
    · rw [hs] at hold
      cases hold
    · simp only [Task.result?, hr] at hnew
      exact (Option.some.inj hnew).symm
  | abandon j => cases (result?_abandon hs j).symm.trans ht
  | close => cases (result?_startClose hs).symm.trans ht
  | letGo => cases hs.symm.trans ht

/-! ### The closing itself -/

/-- Task `c` is a closing, and once it is done the session is vacant. -/
def Closes (s : Session σ) (c : Nat) : Prop := ∃ x, s.tasks[c]? = some (.close x) ∧ (x = .done → s.Vacant)

theorem Spares.closes (h : Spares s t i) (hne : c ≠ i) (hq : Quiet s t) (hs : s.Closes c) : t.Closes c := by
  obtain ⟨x, hx, hdone⟩ := hs
  obtain ⟨woke, ht⟩ := h.others c hne
  refine ⟨x, ?_, fun he => hq.vacant (hdone he)⟩
  rw [ht, hx]
  cases woke <;> rfl

theorem closes_of_ne {x : Closing} (hx : s.tasks[c]? = some (.close x)) (hne : x ≠ .done) : s.Closes c :=
  ⟨x, hx, fun hdone => absurd hdone hne⟩

/-- When the closing whose turn it is finds no feed at work in the slot, every feed has stopped. -/
theorem Sound.vacant {x : Closing} (h : Sound origin terms s) (hi : s.tasks[i]? = some (.close x))
    (hhead : s.turns.head? = some i) (hslot : s.slot = none) (hfreed : s.Freed (.close x)) : s.Vacant :=
  ⟨hslot, h.all_stopped hslot hhead hi hfreed⟩

theorem Sound.closes_closeStep {x : Closing} (h : Sound origin terms s) (hi : s.tasks[i]? = some (.close x))
    (hhead : s.turns.head? = some i) (hready : s.taskReady i = true) : (s.closeStep i x).Closes i := by
  have hlt : i < s.tasks.length := (List.getElem?_eq_some_iff.mp hi).1
  simp only [taskReady, hi] at hready
  unfold Session.closeStep
  cases x with
  | queued =>
    cases hslot : s.slot with
    | some old => exact closes_of_ne (List.getElem?_set_self hlt) (by simp)
    | none =>
      have hvacant := h.vacant hi hhead hslot (freed_of_none rfl)
      exact ⟨.done, List.getElem?_set_self hlt, fun _ => ⟨hvacant.slot, hvacant.stopped⟩⟩
  | draining old =>
    -- It took this feed out of the slot itself, and as it has the turn nobody put another there.
    have hslot := h.vacated _ (List.mem_of_getElem? hi) old rfl
    have hvacant := h.vacant hi hhead hslot (freed_of_hasStopped rfl hready)
    simp only [hready, if_true]
    exact ⟨.done, List.getElem?_set_self hlt, fun _ => ⟨hvacant.slot, hvacant.stopped⟩⟩
  | done => cases hready

theorem Sound.closes_move {m : Mover} (h : Sound origin terms s) (hc : s.closed = true) (hm : s.CanMove m)
    (hs : s.Closes c) : (s.move origin m).Closes c := by
  have hq := h.quiet_move hc hm
  by_cases hmc : m = .task c
  · subst hmc
    obtain ⟨x, hx, -⟩ := hs
    rw [Session.move, Session.turn, hx]
    exact h.closes_closeStep hx hm.1 hm.2
  · obtain ⟨i, hci, hspares⟩ := exists_spares_move origin s hmc
    exact hspares.closes hci hq hs

theorem Quiet.closes (hq : Quiet s t) (ht : t.tasks[c]? = s.tasks[c]?) (hs : s.Closes c) : t.Closes c := by
  obtain ⟨x, hx, hdone⟩ := hs
  exact ⟨x, ht.trans hx, fun he => hq.vacant (hdone he)⟩

theorem closes_push {task : Task} (hq : Quiet s t) (ht : t.tasks = s.tasks ++ [task]) (hs : s.Closes c) : t.Closes c := by
  have hlt : c < s.tasks.length := by
    obtain ⟨x, hx, -⟩ := hs
    exact (List.getElem?_eq_some_iff.mp hx).1
  refine hq.closes ?_ hs
  rw [ht, List.getElem?_append_left hlt]

theorem closes_act {a : Act} (hc : s.closed = true) (hkeep : s.Keeping a) (hs : s.Closes c) : (s.act a).Closes c := by
  have hq := quiet_act a s
  cases a with
  | start len position timeout =>
    obtain ⟨r, -, he⟩ := start_of_closed hc len position timeout
    exact closes_push hq (congrArg tasks he) hs
  | abandon i => exact absurd rfl (hkeep i)
  | close => exact closes_push hq (congrArg tasks (startClose_of_closed hc)) hs
  | letGo => exact hq.closes rfl hs

/-! ### All that follows a closing -/

/-- `t` comes after `s` was closed by task `c`: no feed was started since, every result given since is that
    the stream is closed, and once `c` is done the session is vacant. -/
structure AfterClosing (s t : Session σ) (c : Nat) : Prop where
  closed : t.closed = true
  attempts : t.attempts = s.attempts
  feeds : t.feeds.length = s.feeds.length
  closes : t.Closes c
  refused : ∀ i result, s.result? i = none → t.result? i = some result → result = .error .closed

theorem afterClosing_startClose (hopen : s.closed = false) : AfterClosing s s.startClose s.tasks.length := by
  have hq := quiet_expire s
  have hlen : s.expire.tasks.length = s.tasks.length := by simp [Session.expire, tasks_setRing]
  have hnew : s.startClose.tasks = s.expire.tasks ++ [.close .queued] := by
    rw [startClose, if_neg (by simp [hopen])]
    rfl
  refine ⟨?_, ?_, ?_, closes_of_ne ?_ (by simp : Closing.queued ≠ .done), fun i result hs ht => ?_⟩
  · rw [startClose, if_neg (by simp [hopen])]
  · rw [startClose, if_neg (by simp [hopen])]
    exact hq.attempts
  · rw [startClose, if_neg (by simp [hopen])]
    exact hq.feeds
  · rw [hnew, ← hlen]
    exact List.getElem?_concat_length
  · cases (result?_startClose hs).symm.trans ht

theorem AfterClosing.next (h : AfterClosing s t c) (hq : Quiet t u) (hcloses : u.Closes c)
    (hover : ∀ (i : Nat) (task : Task), t.tasks[i]? = some task → task.isOver = true → u.tasks[i]? = some task)
    (hrefused : ∀ i result, t.result? i = none → u.result? i = some result → result = .error .closed) :
    AfterClosing s u c := by
  refine ⟨hq.closed h.closed, hq.attempts.trans h.attempts, hq.feeds.trans h.feeds, hcloses,
    fun i result hs hu => ?_⟩
  -- Either the result is new in this step, or it was there already and stays.
  cases ht : t.result? i with
  | none => exact hrefused i result ht hu
  | some other =>
    obtain rfl := Option.some.inj ((result?_of_over (hover i) ht).symm.trans hu)
    exact h.refused i other hs ht

theorem AfterClosing.weave (h : AfterClosing s t c) (hsound : Sound origin terms t) (hstep : Weave origin Keeping t u) :
    AfterClosing s u c := by
  have hover : ∀ (i : Nat) (task : Task), t.tasks[i]? = some task → task.isOver = true → u.tasks[i]? = some task :=
    fun _ _ => hstep.over
  cases hstep with
  | move hm =>
    exact h.next (hsound.quiet_move h.closed hm) (hsound.closes_move h.closed hm h.closes) hover
      fun i result => hsound.refuses_move h.closed hm
  | @wait now _ =>
    have hq : Quiet t { t with now } := quiet_of_eq rfl rfl rfl rfl
    refine h.next hq (hq.closes rfl h.closes) hover fun i result ht hu => ?_
    cases ht.symm.trans hu
  | @act a hkeep =>
    exact h.next (quiet_act a t) (closes_act h.closed hkeep h.closes) hover fun i result => refuses_act h.closed

/-- No read was given up. -/
def KeepsAll (s : Session σ) : Prop := ∀ r, .read r ∈ s.tasks → (Task.read r).isKept = true

theorem Spares.isKept {r : Reading} (h : Spares s t i) {j : Nat} (hj : j ≠ i) (hk : s.KeepsAll)
    (hr : t.tasks[j]? = some (.read r)) : (Task.read r).isKept = true := by
  obtain ⟨woke, ht⟩ := h.others j hj
  rw [hr] at ht
  obtain ⟨x, hx, he⟩ := Option.map_eq_some_iff.mp ht.symm
  cases x with
  | read r' =>
    have hkept := hk r' (List.mem_of_getElem? hx)
    rw [← he]
    cases woke <;> simpa using hkept
  | close c => cases woke <;> cases he

theorem Sound.keepsAll_move {m : Mover} (h : Sound origin terms s) (hm : s.CanMove m) (hk : s.KeepsAll) :
    (s.move origin m).KeepsAll := by
  intro r hr
  obtain ⟨j, hj⟩ := List.mem_iff_getElem?.mp hr
  by_cases hmj : m = .task j
  · subst hmj
    simp only [Session.move, Session.turn] at hj
    split at hj
    · rename_i r' hi
      obtain ⟨x, hx, hkept⟩ := (h.readTurn hi hm.2).keeps (List.getElem?_eq_some_iff.mp hi).1
      obtain rfl := Option.some.inj (hx.symm.trans hj)
      exact hkept
    · rename_i c hi
      obtain ⟨x, hx, -⟩ := h.closes_closeStep hi hm.1 hm.2
      cases hx.symm.trans hj
    · exact hk r (List.mem_of_getElem? hj)
  · obtain ⟨i, hji, hspares⟩ := exists_spares_move origin s hmj
    exact hspares.isKept hji hk hj

theorem keepsAll_push {task : Task} (hk : s.KeepsAll) (htask : ∀ r, task = .read r → task.isKept = true)
    (ht : t.tasks = s.tasks ++ [task]) : t.KeepsAll := by
  intro r hr
  rw [ht] at hr
  rcases List.mem_append.mp hr with hr | hr
  · exact hk r hr
  · have hnew := List.mem_singleton.mp hr
    rw [hnew]
    exact htask r hnew.symm

theorem keepsAll_act {a : Act} (hkeep : s.Keeping a) (hk : s.KeepsAll) : (s.act a).KeepsAll := by
  cases a with
  | start len position timeout =>
    simp only [act, Session.start]
    split
    · exact keepsAll_push hk (fun _ _ => rfl) rfl
    · split
      · exact keepsAll_push hk (fun _ _ => rfl) rfl
      · split
        · exact keepsAll_push hk (fun _ _ => rfl) rfl
        · exact keepsAll_push hk (fun _ _ => rfl) rfl
  | abandon i => exact absurd rfl (hkeep i)
  | close =>
    simp only [act, startClose]
    split
    · refine keepsAll_push hk (fun r hr => ?_) rfl
      cases hr
    · have hexpired : s.expire.KeepsAll := by
        intro r hr
        obtain ⟨j, hj⟩ := List.mem_iff_getElem?.mp hr
        exact (spares_expire s (j + 1)).isKept (by omega) hk hj
      refine keepsAll_push hexpired (fun r hr => ?_) rfl
      cases hr
  | letGo => exact hk

theorem Sound.keepsAll_weaves (h : Sound origin (fun _ => .any) s) (hweaves : Weaves origin Keeping s t)
    (hk : s.KeepsAll) : t.KeepsAll := by
  induction hweaves with
  | refl => exact hk
  | @tail u v hsu hstep ih =>
    have hsound := h.weaves (fun _ _ => patient_of_keeping) hsu
    cases hstep with
    | move hm => exact hsound.keepsAll_move hm ih
    | wait => exact ih
    | act hkeep => exact keepsAll_act hkeep ih

theorem AfterClosing.weaves (h : AfterClosing s t c) (hsound : Sound origin (fun _ => .any) t)
    (hweaves : Weaves origin Keeping t u) : AfterClosing s u c := by
  induction hweaves with
  | refl => exact h
  | tail htu hstep ih => exact ih.weave (hsound.weaves (fun _ _ => patient_of_keeping) htu) hstep

/-- In a closed session nobody waits for time to pass. -/
theorem Sound.turns_eq_nil_of_closed (h : Sound origin terms s) (hc : s.closed = true) (hrest : s.IsSettled) :
    s.turns = [] := by
  cases hhead : s.turns.head? with
  | none => exact List.head?_eq_none_iff.mp hhead
  | some i =>
    exfalso
    obtain ⟨r, last, hi, hp, -⟩ := h.exists_read_of_isSettled hrest hhead
    have hpending := (h.waiting r last false (List.mem_of_getElem? hi) hp).pending rfl
    rw [Ring.availability, if_pos (h.shut hc)] at hpending
    cases hpending

theorem Sound.isOver_of_closed {task : Task} (h : Sound origin terms s) (hc : s.closed = true) (hrest : s.IsSettled)
    (hi : s.tasks[i]? = some task) : task.isOver = true := by
  cases hover : task.isOver with
  | true => rfl
  | false =>
    have hmem := (h.lined.mem_iff i).mpr ⟨task, hi, hover⟩
    rw [h.turns_eq_nil_of_closed hc hrest] at hmem
    cases hmem

/-- What a closing comes to: it is done and the session vacant, and every read that had no result when the stream
    was closed, or was started later, has ended as closed. -/
structure Concluded (s t : Session σ) : Prop where
  closing : t.tasks[s.tasks.length]? = some (.close .done)
  vacant : t.Vacant
  reads : ∀ i r, t.tasks[i]? = some (.read r) → s.result? i = none → t.result? i = some (.error .closed)

theorem AfterClosing.concluded (h : AfterClosing s t s.tasks.length) (hsound : Sound origin terms t) (hk : t.KeepsAll)
    (hrest : t.IsSettled) : Concluded s t := by
  obtain ⟨x, hx, hvacant⟩ := h.closes
  have hover := hsound.isOver_of_closed h.closed hrest hx
  obtain rfl : x = .done := by cases x <;> first | rfl | cases hover
  refine ⟨hx, hvacant rfl, fun i r hi hs => ?_⟩
  have hsome := Task.isSome_result? (hk r (List.mem_of_getElem? hi)) (hsound.isOver_of_closed h.closed hrest hi)
  obtain ⟨result, hresult⟩ := Option.isSome_iff_exists.mp hsome
  rw [← result?_of_task hi] at hresult
  rw [hresult, h.refused i result hs hresult]

/-- Let the owner of a new stream start reads and close it as it likes, giving up no read, and let the steps of
    reads, closings and feeds be taken in any order. From the first closing on, every result that is given is
    that the stream is closed, no connection is attempted and no feed started; once that closing is done no
    feed serves the stream and every feed has stopped; and further closings are done at once and change
    nothing. Left to itself, the session comes to an end without time passing, at which the closing is done and
    every read that had no result then, or was started later, has ended as closed. -/
theorem closing_is_final (hnew : IsNew s₀) (hs : Weaves origin Keeping s₀ s) (hopen : s.closed = false)
    (ht : Weaves origin Keeping s.startClose t) :
    (∀ i result, s.result? i = none → t.result? i = some result → result = .error .closed) ∧
      t.attempts = s.attempts ∧ t.feeds.length = s.feeds.length ∧
      (t.tasks[s.tasks.length]? = some (.close .done) → t.slot = none ∧ ∀ f ∈ t.feeds, f.isStopped = true) ∧
      t.startClose = { t with tasks := t.tasks ++ [.close .done] } ∧ t.Comes origin (Concluded s) := by
  have hsound := (hnew.sound origin fun _ => .any).weaves (fun _ _ => patient_of_keeping) hs
  have hclosed : Sound origin (fun _ => .any) s.startClose := hsound.startClose
  have hall : Weaves origin Keeping s₀ t :=
    (hs.tail (.act (a := .close) fun _ h => nomatch h)).trans ht
  have hafter := (afterClosing_startClose hopen).weaves hclosed ht
  refine ⟨hafter.refused, hafter.attempts, hafter.feeds, fun hdone => ?_, startClose_of_closed hafter.closed,
    comes_of_isSettled fun u hu hrest => ?_⟩
  · obtain ⟨x, hx, hvacant⟩ := hafter.closes
    obtain rfl := Task.close.inj (Option.some.inj (hx.symm.trans hdone))
    exact ⟨(hvacant rfl).slot, (hvacant rfl).stopped⟩
  · -- What the session does by itself are woven steps as well.
    have hsettled := ht.trans (weaves_of_goes hu)
    have hkept : u.KeepsAll := by
      refine (hnew.sound origin fun _ => .any).keepsAll_weaves (hall.trans (weaves_of_goes hu)) ?_
      obtain ⟨node, url, size, tier, readTimeout, maxReadTimeout, scratch, storage, now, -, rfl⟩ := hnew
      exact fun _ hr => nomatch hr
    exact ((afterClosing_startClose hopen).weaves hclosed hsettled).concluded
      (hclosed.weaves (fun _ _ => patient_of_keeping) hsettled) hkept hrest

/-- The stream is closed while its only read waits for the source, and the read takes its turn. -/
theorem closing_ends_waiting_read :
    ∃ result, (justAsked.startClose.turn slow 0).result? 0 = some result ∧ result = .error .closed := by
  have hnew : IsNew (onStorage (σ := Unit) oneByte (Bytes.ofFn 1 fun _ => 0) 0) := ⟨_, _, _, _, _, _, _, _, _, rfl, rfl⟩
  have hstart : Weave slow Keeping (onStorage oneByte (Bytes.ofFn 1 fun _ => 0) 0) _ :=
    .act (a := .start 1 0 none) fun _ h => nomatch h
  have hs : Weaves slow Keeping (onStorage oneByte (Bytes.ofFn 1 fun _ => 0) 0) justAsked :=
    .tail (.tail (.single hstart) (.move (m := .task 0) ⟨rfl, rfl⟩)) (.move (m := .feed 0) rfl)
  have ht : Weaves slow Keeping justAsked.startClose (justAsked.startClose.turn slow 0) :=
    .single (.move (m := .task 0) ⟨rfl, rfl⟩)
  obtain ⟨result, hresult⟩ : ∃ result, (justAsked.startClose.turn slow 0).result? 0 = some result := ⟨_, rfl⟩
  obtain ⟨hrefused, -⟩ := closing_is_final hnew hs rfl ht
  exact ⟨result, hresult, hrefused 0 result rfl hresult⟩

end Session
end ReadAhead
