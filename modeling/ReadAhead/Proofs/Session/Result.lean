import ReadAhead.Proofs.Session.Sound

/-! Where results come from. A step gives a result to a read when it is that read's turn, or when the read
    starts and needs no turn (`Step.gives`). Bytes come from the ring alone, out of a session in which the
    read has the turn and a feed serves the stream (`Sound.served`). -/

namespace ReadAhead

/-- The result of a task, if it is a read that is done. -/
def Task.result? : Task → Option (Except Failure Delivery)
  | .read r => match r.phase with
    | .done result => some result
    | _ => none
  | .close _ => none

@[simp] theorem Task.result?_wake (t : Task) : t.wake.result? = t.result? := by
  rcases t with ⟨len, position, wait, deadline, phase⟩ | c
  · cases phase <;> rfl
  · rfl

theorem Task.isOver_of_result? {t : Task} {result : Except Failure Delivery} (h : t.result? = some result) :
    t.isOver = true := by
  rcases t with ⟨len, position, wait, deadline, phase⟩ | c
  · cases phase <;> first | rfl | cases h
  · cases h

theorem Task.result?_of_not_over {t : Task} (h : t.isOver = false) : t.result? = none := by
  cases hr : t.result? with
  | none => rfl
  | some result =>
    rw [isOver_of_result? hr] at h
    cases h

namespace Session
variable {σ : Type} {origin : Origin σ} {terms : Nat → Origin.Terms} {s t : Session σ} {i : Nat}

theorem result?_eq (s : Session σ) (i : Nat) : s.result? i = s.tasks[i]?.bind Task.result? := by
  unfold Session.result?
  split
  · rename_i r hi
    rw [hi]
    rfl
  · rename_i hno
    cases hi : s.tasks[i]? with
    | none => rfl
    | some task =>
      cases task with
      | read r => exact absurd hi (hno r)
      | close c => rfl

theorem result?_of_task {task : Task} (hi : s.tasks[i]? = some task) : s.result? i = task.result? := by
  rw [result?_eq, hi]
  rfl

theorem result?_of_done {r : Reading} {result : Except Failure Delivery} (hi : s.tasks[i]? = some (.read r))
    (hdone : r.phase = .done result) : s.result? i = some result := by
  rw [result?_of_task hi]
  simp only [Task.result?, hdone]

theorem Spares.result? {j : Nat} (h : Spares s t i) (hj : j ≠ i) : t.result? j = s.result? j := by
  obtain ⟨woke, ht⟩ := h.others j hj
  rw [result?_eq, result?_eq, ht]
  cases s.tasks[j]? with
  | none => rfl
  | some x => cases woke <;> simp

theorem result?_endTask {new : Task} (hlt : i < s.tasks.length) : (s.endTask i new).result? i = new.result? :=
  result?_of_task (List.getElem?_set_self hlt)

theorem result?_setTask {new : Task} (hlt : i < s.tasks.length) : (s.setTask i new).result? i = new.result? :=
  result?_of_task (List.getElem?_set_self hlt)

/-- A result among the tasks and a new one is an old result, or that of the new task. -/
theorem result?_of_push {new : Task} {result : Except Failure Delivery} (h : t.result? i = some result)
    (ht : t.tasks = s.tasks ++ [new]) :
    s.result? i = some result ∨ (i = s.tasks.length ∧ new.result? = some result) := by
  rw [result?_eq, ht] at h
  obtain ⟨x, hx, hxr⟩ := Option.bind_eq_some_iff.mp h
  rcases getElem?_push.mp hx with hx | ⟨hi, rfl⟩
  · exact Or.inl (by rw [result?_of_task hx, hxr])
  · exact Or.inr ⟨hi, hxr⟩

theorem result?_closeStep {c : Closing} (hi : s.tasks[i]? = some (.close c)) : (s.closeStep i c).result? i = none := by
  have hlt : i < s.tasks.length := (List.getElem?_eq_some_iff.mp hi).1
  unfold Session.closeStep
  split
  · split
    · rw [result?_setTask (s := s.dismiss _) hlt]
      rfl
    · rw [result?_endTask hlt]
      rfl
  · split
    · rw [result?_endTask hlt]
      rfl
    · exact result?_of_task hi
  · exact result?_of_task hi

theorem result?_abandon (hs : s.result? i = none) (j : Nat) : (s.abandon j).2.result? i = none := by
  unfold Session.abandon
  split
  · rename_i r hj
    split
    · exact hs
    · by_cases hij : i = j
      · subst hij
        exact result?_endTask (List.getElem?_eq_some_iff.mp hj).1
      · exact ((spares_endTask s j _).result? hij).trans hs
  · exact hs

theorem result?_startClose (hs : s.result? i = none) : s.startClose.result? i = none := by
  cases hr : s.startClose.result? i with
  | none => rfl
  | some result =>
    exfalso
    unfold Session.startClose at hr
    split at hr
    · rcases result?_of_push (s := s) hr rfl with hold | ⟨-, hnew⟩
      · rw [hs] at hold
        cases hold
      · cases hnew
    · rcases result?_of_push (s := s.expire) hr rfl with hold | ⟨-, hnew⟩
      · rw [(spares_expire s (i + 1)).result? (by omega), hs] at hold
        cases hold
      · cases hnew

/-- A read is started with its limit, whatever comes of it, and gets no bytes at once. -/
theorem tasks_start (s : Session σ) (len position : Nat) (timeout : Option Duration) :
    ∃ r : Reading, r.len = len ∧ r.position = position ∧
      r.deadline = s.now + (s.stream.waitFor timeout).millisUp ∧
      (s.start len position timeout).tasks = s.tasks ++ [.read r] ∧
      ∀ d, (Task.read r).result? = some (.ok d) → d.bytes = ByteArray.empty := by
  unfold Session.start
  simp only
  repeat' split
  all_goals
    refine ⟨_, rfl, rfl, rfl, rfl, fun d hd => ?_⟩
    cases hd <;> rfl

/-- A result that the owner gives is that of a read which starts, and carries no bytes. -/
theorem gives_act {a : Act} {result : Except Failure Delivery} (hs : s.result? i = none)
    (ht : (s.act a).result? i = some result) : ∀ d, result = .ok d → d.bytes = ByteArray.empty := by
  cases a with
  | start len position timeout =>
    rintro d rfl
    obtain ⟨r, -, -, -, htasks, hempty⟩ := tasks_start s len position timeout
    rcases result?_of_push ht htasks with hold | ⟨-, hnew⟩
    · rw [hs] at hold
      cases hold
    · exact hempty d hnew
  | abandon j => cases (result?_abandon hs j).symm.trans ht
  | close => cases (result?_startClose hs).symm.trans ht
  | letGo => cases hs.symm.trans ht

/-- A move that gives a result is the turn of the read. -/
theorem gives_move {m : Mover} {result : Except Failure Delivery} (hm : s.CanMove m) (hs : s.result? i = none)
    (ht : (s.move origin m).result? i = some result) :
    ∃ r, s.tasks[i]? = some (.read r) ∧ s.turns.head? = some i ∧ s.taskReady i = true ∧
      s.move origin m = s.readStep origin i r := by
  by_cases hmi : m = .task i
  · subst hmi
    simp only [Session.move, Session.turn] at ht ⊢
    split at ht
    · rename_i r hi
      exact ⟨r, hi, hm.1, hm.2, rfl⟩
    · rename_i c hi
      rw [result?_closeStep hi] at ht
      cases ht
    · rw [hs] at ht
      cases ht
  · obtain ⟨j, hij, hspares⟩ := exists_spares_move origin s hmi
    rw [hspares.result? hij, hs] at ht
    cases ht

/-- A step that gives a result is the turn of the read, or the owner starts a read that needs no turn and gets
    no bytes. -/
theorem Step.gives {result : Except Failure Delivery} (h : Step origin s t) (hs : s.result? i = none)
    (ht : t.result? i = some result) :
    (∃ r, s.tasks[i]? = some (.read r) ∧ s.turns.head? = some i ∧ s.taskReady i = true ∧ t = s.readStep origin i r) ∨
      ∀ d, result = .ok d → d.bytes = ByteArray.empty := by
  cases h with
  | move hm => exact Or.inl (gives_move hm hs ht)
  | wait =>
    have hsame : s.result? i = some result := ht
    rw [hs] at hsame
    cases hsame
  | act a => exact Or.inr (gives_act hs ht)

/-! ### Reads that are served -/

/-- Read `i` is served in the session `u`, of which `t` is left. -/
structure Served (u : Session σ) (i : Nat) (r : Reading) (last : Nat) (d : Delivery) (t : Session σ) : Prop where
  resident : u.ring.isResident r.position = true
  enough : u.ring.isResident last = true ∨ ∃ stop, u.ring.stop = some stop ∧ stop ≤ last ∧ r.position < stop
  taken : ∃ left, u.ring.Taken r.len r.position d.bytes left ∧
    t = ((u.setRing left true).note .ready).finish i r (.ok d)
  eof : d.eof = decide (u.stream.size ≤ r.position + d.bytes.size)

theorem Looked.served_of_result? {r : Reading} {last : Nat} {d : Delivery} (hi : i < s.tasks.length)
    (h : Looked s i r last t) (ht : t.result? i = some (.ok d)) : Served s i r last d t := by
  cases h with
  | closed =>
    rw [finish_eq, result?_endTask hi] at ht
    cases ht
  | shut =>
    rw [finish_eq, result?_endTask hi] at ht
    cases ht
  | @served hc hres henough bytes left htaken =>
    rw [finish_eq, result?_endTask (by simpa [tasks_setRing] using hi)] at ht
    obtain rfl := Except.ok.inj (Option.some.inj ht)
    exact ⟨hres, henough, ⟨left, htaken, rfl⟩, rfl⟩
  | short =>
    simp only [fallShort] at ht
    rw [finish_eq, result?_endTask hi] at ht
    cases ht
  | late =>
    rw [finish_eq, result?_endTask (by simpa using hi)] at ht
    cases ht
  | waits =>
    rw [result?_setTask (by simpa using hi)] at ht
    cases ht

/-- Where read `i` looks in its turn: in the session as it is, or in the one with a feed just started for it. -/
inductive LooksIn (origin : Origin σ) (s : Session σ) (r : Reading) : Session σ → Nat → Prop
  | here {last : Nat}
    (hlast : (r.phase = .queued ∧ s.closed = false ∧ s.isStale r = false ∧ last = s.lastWanted r) ∨
      r.phase = .waiting last true) : LooksIn origin s r s last
  | joined {source : σ}
    (hold : (r.phase = .queued ∧ s.closed = false ∧ s.slot = none) ∨
      ∃ old, r.phase = .replacing old ∧ s.hasStopped old = true)
    (hopen : s.ring.isClosed = false)
    (hconn : origin.connect s.stream.url s.attempts (s.restartAt r) = .ok source) :
    LooksIn origin s r (s.joined source (s.restartAt r)) ((s.joined source (s.restartAt r)).lastWanted r)

theorem ReadTurn.served {r : Reading} {d : Delivery} (hlt : i < s.tasks.length) (h : ReadTurn origin s i r t)
    (ht : t.result? i = some (.ok d)) : ∃ u last, LooksIn origin s r u last ∧ Served u i r last d t := by
  cases h with
  | closed hp hc =>
    rw [finish_eq, result?_endTask hlt] at ht
    cases ht
  | dismiss hp hc hstale hslot =>
    rw [result?_setTask (s := s.dismiss _) hlt] at ht
    cases ht
  | restart hold hr =>
    cases hr with
    | shut =>
      rw [finish_eq, result?_endTask hlt] at ht
      cases ht
    | refused =>
      rw [finish_eq, result?_endTask (by simpa using hlt)] at ht
      cases ht
    | connected hopen hconn hlook =>
      exact ⟨_, _, .joined hold hopen hconn, hlook.served_of_result? (by simpa using hlt) ht⟩
  | look hlast hl => exact ⟨s, _, .here hlast, hl.served_of_result? hlt ht⟩
  | late hp hd =>
    rw [finish_eq, result?_endTask hlt] at ht
    cases ht

theorem LooksIn.stream {u : Session σ} {r : Reading} {last : Nat} (h : LooksIn origin s r u last) :
    u.stream = s.stream := by
  cases h with
  | here => rfl
  | joined => exact stream_joined ..

/-- Where a read looks, it has the turn and a feed is there. -/
theorem Sound.atWork_of_looksIn {u : Session σ} {r : Reading} {last : Nat} (h : Sound origin terms s)
    (hoffers : Offers origin terms s.stream) (hi : s.tasks[i]? = some (.read r)) (hhead : s.turns.head? = some i)
    (hlooks : LooksIn origin s r u last) : AtWork origin terms u i r last := by
  cases hlooks with
  | here hlast => exact h.atWork hi hhead hlast
  | joined hold hopen hconn => exact (h.replaces hi hhead hold).atWork hoffers hopen hconn

/-- A read gets its bytes in a session of the same stream in which it has the turn and a feed is there. -/
theorem Sound.served {r : Reading} {d : Delivery} (h : Sound origin terms s) (hoffers : Offers origin terms s.stream)
    (hi : s.tasks[i]? = some (.read r)) (hhead : s.turns.head? = some i) (hready : s.taskReady i = true)
    (ht : (s.readStep origin i r).result? i = some (.ok d)) :
    ∃ u last, AtWork origin terms u i r last ∧ u.stream = s.stream ∧ Served u i r last d (s.readStep origin i r) := by
  have hlt : i < s.tasks.length := (List.getElem?_eq_some_iff.mp hi).1
  obtain ⟨u, last, hlooks, hserved⟩ := (h.readTurn hi hready).served hlt ht
  exact ⟨u, last, h.atWork_of_looksIn hoffers hi hhead hlooks, hlooks.stream, hserved⟩

end Session
end ReadAhead
