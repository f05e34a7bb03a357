import ReadAhead.Proofs.Session.Sound

/-! Nobody is stuck. In a settled session a read that has the turn waits for the source and for nothing else:
    its bytes can still come, the ring has room for them, and the feed waits for an answer that is not due
    yet. So the reader never waits for a feed that waits for the reader, and no change goes unnoticed. -/

namespace ReadAhead

/-- Terms that allow anything. -/
def Origin.Terms.any : Origin.Terms := ⟨fun _ _ => True, fun _ => True, fun _ _ => True⟩

theorem Origin.Terms.allow_any {position : Nat} {answer : Except Failure ByteArray} {onward : Nat → Prop}
    (h : ∀ p, onward p) : Origin.Terms.any.Allow position answer onward := by
  unfold Allow
  split
  · trivial
  · split
    · trivial
    · exact ⟨fun _ _ _ => trivial, h _⟩

namespace Session
variable {σ : Type} {origin : Origin σ} {terms : Nat → Origin.Terms} {s s₀ : Session σ} {i : Nat} {r : Reading}

theorem offers_any (origin : Origin σ) (stream : Stream) : Offers origin (fun _ => .any) stream :=
  fun _ _ _ _ _ => ⟨fun _ _ => True, trivial, fun _ _ _ => Origin.Terms.allow_any fun _ => trivial⟩

/-- A read that has the turn when nobody can take a step has looked in vain and is not late, unless it waits for a
    feed that has not stopped. -/
theorem Lined.phase_of_isSettled (h : Lined s.tasks s.turns) (hrest : s.IsSettled) (hhead : s.turns.head? = some i)
    (hi : s.tasks[i]? = some (.read r)) (hfreed : s.Freed (.read r)) :
    ∃ last, r.phase = .waiting last false ∧ s.now < r.deadline := by
  have hno : s.taskReady i = false := by
    cases hready : s.taskReady i with
    | false => rfl
    | true => exact absurd ⟨hhead, hready⟩ (hrest.not_canMove (.task i))
  obtain ⟨t, ht, hgo⟩ := (h.mem_iff i).mp (List.mem_of_mem_head? hhead)
  obtain rfl := Option.some.inj (hi.symm.trans ht)
  simp only [taskReady, hi] at hno
  split at hno
  · cases hno
  · rename_i old hp
    have hold : (Task.read r).old? = some old := by simp [Task.old?, hp]
    rw [hfreed old hold] at hno
    cases hno
  · rename_i last woken hp
    simp only [Bool.or_eq_false_iff, decide_eq_false_iff_not, Nat.not_le] at hno
    exact ⟨last, by rw [hp, hno.1], hno.2⟩
  · rename_i hp
    simp [Task.isOver, hp] at hgo
  · rename_i hp
    simp [Task.isOver, hp] at hgo

/-- Nobody but a read that waits for its bytes has the turn when nobody can take a step. -/
theorem Lined.exists_read_of_isSettled (h : Lined s.tasks s.turns) (hrest : s.IsSettled)
    (hhead : s.turns.head? = some i) (hfreed : ∀ x ∈ s.tasks, s.Freed x) :
    ∃ r last, s.tasks[i]? = some (.read r) ∧ r.phase = .waiting last false ∧ s.now < r.deadline := by
  obtain ⟨task, hi, hgo⟩ := (h.mem_iff i).mp (List.mem_of_mem_head? hhead)
  cases task with
  | read r =>
    obtain ⟨last, hp, hdeadline⟩ := h.phase_of_isSettled hrest hhead hi (hfreed _ (List.mem_of_getElem? hi))
    exact ⟨r, last, hi, hp, hdeadline⟩
  | close c =>
    refine absurd ⟨hhead, ?_⟩ (hrest.not_canMove (.task i))
    simp only [taskReady, hi]
    cases c with
    | queued => rfl
    | draining old => exact hfreed _ (List.mem_of_getElem? hi) old rfl
    | done => cases hgo

theorem Sound.exists_read_of_isSettled (h : Sound origin terms s) (hrest : s.IsSettled) (hhead : s.turns.head? = some i) :
    ∃ r last, s.tasks[i]? = some (.read r) ∧ r.phase = .waiting last false ∧ s.now < r.deadline :=
  h.lined.exists_read_of_isSettled hrest hhead fun _ => h.freed hrest

/-- Bytes that are pending within reach of an open ring are not there, nor given up, and there is room for
    them. -/
theorem room_of_pending (hring : s.ring.Sound) {last : Nat} (hlow : s.ring.start ≤ last) (hhigh : last < s.reach)
    (hpending : s.ring.availability last = .ok .pending) :
    s.ring.isClosed = false ∧ s.ring.isResident last = false ∧ (∀ stop, s.ring.stop = some stop → last < stop) ∧
      s.ring.writePosition ≤ last ∧ 0 < s.ring.free := by
  have hopen : s.ring.isClosed = false := by
    cases hc : s.ring.isClosed with
    | false => rfl
    | true =>
      rw [Ring.availability, if_pos hc] at hpending
      cases hpending
  rw [Ring.availability_of_open hopen] at hpending
  split at hpending
  · cases hpending
  · rename_i hres
    have hres : s.ring.isResident last = false := by simpa using hres
    have hwrite : s.ring.writePosition ≤ last := by
      refine Nat.le_of_not_lt fun hlt => ?_
      rw [(Ring.isResident_iff hring).mpr ⟨hopen, hlow, hlt⟩] at hres
      cases hres
    refine ⟨hopen, hres, fun stop hstop => ?_, hwrite, ?_⟩
    · rw [hstop] at hpending
      simp only [Except.ok.injEq] at hpending
      split at hpending
      · cases hpending
      · omega
    · have hwindow := Ring.writePosition_eq hring
      rw [Ring.free_of_open hopen]
      unfold reach at hhigh
      omega

/-- A feed that fills the ring, sleeps on a full ring only, and has no step to take, waits for its source
    unless it has stopped or the ring is full. -/
theorem awaiting_of_not_ready {f : Feed σ} (hno : f.isReady s.now = false) (hgo : f.cancelled = false)
    (hrun : f.isStopped = false) (hasleep : f.isAsleep = true → s.ring.free = 0) (hroom : 0 < s.ring.free) :
    ∃ due answer, f.phase = .awaiting due answer ∧ s.now < due := by
  unfold Feed.isReady at hno
  rw [hgo] at hno
  split at hno
  · cases hno
  · rename_i due answer hp
    exact ⟨due, answer, hp, by simpa using hno⟩
  · rename_i rest left woken hp
    have hfull := hasleep (by simpa [Feed.isAsleep, hp] using hno)
    omega
  · rename_i hp
    rw [Feed.isStopped_iff.mpr hp] at hrun
    cases hrun

/-- In every settled session that a new stream comes to, a read that has the turn waits for bytes that the
    feed is about to get: they are pending within reach of the ring, which has room, and the feed waits for an
    answer of its source that is not due. The read is not late either. -/
theorem waits_for_source_alone (hnew : IsNew s₀) (hreach : Reaches origin s₀ s) (hrest : s.IsSettled)
    (hhead : s.turns.head? = some i) (hi : s.tasks[i]? = some (.read r)) :
    ∃ last k f due answer, r.phase = .waiting last false ∧ s.closed = false ∧
      s.ring.start ≤ last ∧ last < s.ring.start + s.ring.capacity ∧
      s.ring.isResident last = false ∧ (∀ stop, s.ring.stop = some stop → last < stop) ∧ 0 < s.ring.free ∧
      s.slot = some k ∧ s.feeds[k]? = some f ∧ f.isStopped = false ∧ f.cancelled = false ∧
      f.phase = .awaiting due answer ∧ s.now < due ∧ s.now < r.deadline := by
  obtain ⟨h, -⟩ := (hnew.sound origin fun _ => .any).reaches (offers_any origin s₀.stream) hreach
  obtain ⟨last, hp, hdeadline⟩ := h.lined.phase_of_isSettled hrest hhead hi (h.freed hrest (List.mem_of_getElem? hi))
  have hw := h.waiting r last false (List.mem_of_getElem? hi) hp
  have hlast : r.position ≤ last := hw.target ▸ le_lastWanted s r
  have hlow : s.ring.start ≤ last := Nat.le_trans hw.low hlast
  have hhigh : last < s.reach := by
    have hposition := hw.high
    rw [hw.target]
    unfold lastWanted
    omega
  obtain ⟨hopen, hres, hstop, hwrite, hroom⟩ := room_of_pending h.ring hlow hhigh (hw.pending rfl)
  obtain ⟨k, hk⟩ := Option.isSome_iff_exists.mp hw.served
  obtain ⟨f, hf, hs⟩ := h.serving k hk
  obtain ⟨hgo, hfills⟩ := hs.fills hopen
  have hrun : f.isStopped = false := by
    cases hstopped : f.isStopped with
    | false => rfl
    | true =>
      -- A feed that has stopped has marked the ring at its write position, which is not beyond `last`.
      have hmark := hfills.stop
      rw [hstopped, if_pos rfl] at hmark
      have := hstop _ hmark
      omega
  have hno : f.isReady s.now = false := by
    cases hr : f.isReady s.now with
    | false => rfl
    | true => exact absurd (by simp [CanMove, feedReady, hf, hr]) (hrest.not_canMove (.feed k))
  obtain ⟨due, answer, hphase, hdue⟩ := awaiting_of_not_ready hno hgo hrun (h.asleep f (List.mem_of_getElem? hf)) hroom
  have hclosed : s.closed = false := by
    cases hc : s.closed with
    | false => rfl
    | true =>
      rw [h.shut hc] at hopen
      cases hopen
  exact ⟨last, k, f, due, answer, hp, hclosed, hlow, hhigh, hres, hstop, hroom, hk, hf, hrun, hgo, hphase, hdue, hdeadline⟩

/-- Sources that have no bytes, and take five milliseconds to say so. -/
def slow : Origin Unit where
  connect := fun _ _ _ => .ok ()
  read := fun _ _ => ⟨5, .ok ByteArray.empty, ()⟩
  read_le := fun h => by
    cases h
    exact Nat.zero_le _

def oneByte : Stream := Stream.of 1 "http://origin/file" 1 ⟨1, 0⟩ (.ofSeconds 1) (.ofSeconds 1) 1

/-- A read of that byte, for which the source has just been asked. -/
def justAsked : Session Unit :=
  (((onStorage oneByte (Bytes.ofFn 1 fun _ => 0) 0).start 1 0 none).turn slow 0).feedStep slow 0

theorem reaches_justAsked : Reaches slow (onStorage oneByte (Bytes.ofFn 1 fun _ => 0) 0) justAsked := by
  have hstart : Step slow (onStorage oneByte (Bytes.ofFn 1 fun _ => 0) 0) _ := .act (.start 1 0 none) rfl
  exact .tail (.tail (.single hstart) (.move (m := .task 0) ⟨rfl, rfl⟩)) (.move (m := .feed 0) rfl)

theorem waits_for_slow_source :
    ∃ last k f due answer, justAsked.ring.isResident last = false ∧ 0 < justAsked.ring.free ∧
      justAsked.slot = some k ∧ justAsked.feeds[k]? = some f ∧ f.phase = .awaiting due answer ∧ justAsked.now < due := by
  have hnew : IsNew (onStorage (σ := Unit) oneByte (Bytes.ofFn 1 fun _ => 0) 0) := ⟨_, _, _, _, _, _, _, _, _, rfl, rfl⟩
  have hread : justAsked.tasks[0]? = some (.read ⟨1, 0, .ofSeconds 1, 1000, .waiting 0 false⟩) := rfl
  obtain ⟨last, k, f, due, answer, -, -, -, -, hres, -, hroom, hk, hf, -, -, hphase, hdue, -⟩ :=
    waits_for_source_alone hnew reaches_justAsked rfl rfl hread
  exact ⟨last, k, f, due, answer, hres, hroom, hk, hf, hphase, hdue⟩

end Session
end ReadAhead
