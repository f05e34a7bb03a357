import ReadAhead.Proofs.Session.Marked
import ReadAhead.Proofs.Session.Short

/-! Whom a read blames that fails because its bytes do not come. The feed in the slot stays there while a read waits
    (`Orderly.slot_weaves`), and an open ring is marked finished where that feed stopped, by nobody else. So a read that
    is left waiting gets what is there of its bytes; and if nothing is, it fails with what that very feed failed with
    (`Feed.blame`). -/

namespace ReadAhead

/-- What a read fails with that was left by `f` at `stop`: what `f` failed with, if that will not pass by itself, and
    else that the feed ended. -/
def Feed.blame {σ : Type} (f : Feed σ) (stop : Nat) : Failure :=
  match f.failure with
  | some cause => if cause.isTransient then .ended stop else cause
  | none => .ended stop

namespace Session
variable {σ : Type} {origin : Origin σ} {may : Session σ → Act → Prop}
  {s s₀ t u : Session σ} {i k last low stop : Nat} {r : Reading} {f : Feed σ} {e : Failure}
  {result : Except Failure Delivery}

/-! ### The feed that a read waits for -/

/-- While a read waits, nobody replaces the feed. -/
theorem Orderly.slot_weave (h : s.Orderly) (hs : s.WaitsFrom i low) (hstep : Weave origin may s t) : t.slot = s.slot := by
  obtain ⟨-, x, hx, hw⟩ := hs
  obtain ⟨r, last, woken, rfl, hp⟩ := Task.exists_of_isWaiting hw
  -- A read that waits has the turn.
  have hhead := h.lined.head_of_waiting hx hp
  cases h.stepCase hstep with
  | feed hj hr => exact (reringed_feedStep h.ring hj hr).slot
  | read hturns hi hturn =>
    obtain rfl := Option.some.inj (hturns.symm.trans hhead)
    obtain rfl := Task.read.inj (Option.some.inj (hi.symm.trans hx))
    rcases hturn.looks_or_late hp with ⟨-, hl⟩ | ⟨-, -, he⟩
    · exact hl.slot
    · rw [he, finish_eq, slot_endTask]
  | close hturns hi =>
    obtain rfl := Option.some.inj (hturns.symm.trans hhead)
    cases hi.symm.trans hx
  | expire => exact (reringed_expire h.ring).slot
  | wait => rfl
  | @act a _ =>
    rcases steady_or_closes a s with ht | ⟨-, tasks, turns, he⟩
    · exact ht.slot
    · rw [he]
      exact (reringed_expire h.ring).slot

theorem Orderly.slot_weaves (h : s.Orderly) (hs : s.WaitsFrom i low) (hweaves : Weaves origin may s t)
    (hend : ¬ t.Over i) : t.slot = s.slot := by
  induction hweaves with
  | refl => rfl
  | @tail u v hsu hstep ih =>
    have hu : ¬ u.Over i := fun hover => hend (hover.weave hstep)
    have hwaits := (h.waitsFrom_weaves hs hsu).resolve_right hu
    exact ((h.weaves hsu).slot_weave hwaits hstep).trans (ih hu)

/-! ### Reads that are left waiting -/

/-- Read `i` waits for bytes that the open ring does not hold, and `f`, the feed in the slot, has stopped. -/
structure LeftBy (s : Session σ) (i : Nat) (r : Reading) (k : Nat) (f : Feed σ) : Prop where
  read : s.tasks[i]? = some (.read r)
  waits : ∃ last woken, r.phase = .waiting last woken ∧ s.ring.isResident last = false
  live : s.ring.isClosed = false
  slot : s.slot = some k
  feed : s.feeds[k]? = some f
  stopped : f.isStopped = true

/-- What a read gets that is left by `f`: the bytes that `f` brought of those it wants; or if there is none, what is to
    be blamed on `f`. -/
inductive Remains (r : Reading) (f : Feed σ) : Except Failure Delivery → Prop
  | bytes {d : Delivery} (hsome : r.position < f.start + f.copied)
    (hsize : d.bytes.size = min r.len (f.start + f.copied - r.position)) : Remains r f (.ok d)
  | nothing (hnone : f.start + f.copied ≤ r.position) : Remains r f (.error (f.blame (f.start + f.copied)))

theorem LeftBy.current? (h : LeftBy s i r k f) : s.current? = some f := by
  rw [Session.current?, h.slot, Option.bind_some, h.feed]

theorem LeftBy.lt (h : LeftBy s i r k f) : i < s.tasks.length := (List.getElem?_eq_some_iff.mp h.read).1

theorem LeftBy.isOver (h : LeftBy s i r k f) : (Task.read r).isOver = false := by
  obtain ⟨last, woken, hp, -⟩ := h.waits
  simp [Task.isOver, hp]

theorem LeftBy.result? (h : LeftBy s i r k f) : s.result? i = none := by
  rw [result?_of_task h.read, Task.result?_of_not_over h.isOver]

theorem LeftBy.head (h : LeftBy s i r k f) (hlined : Lined s.tasks s.turns) : s.turns.head? = some i := by
  obtain ⟨last, woken, hp, -⟩ := h.waits
  exact hlined.head_of_waiting h.read hp

/-- A read that waits finds all bytes before the write position that it has not passed. -/
theorem Orderly.isResident_of_waiting {woken : Bool} (h : s.Orderly) (hi : s.tasks[i]? = some (.read r))
    (hp : r.phase = .waiting last woken) (hlive : s.ring.isClosed = false) {p : Nat} (hpast : r.position ≤ p) :
    s.ring.isResident p = decide (p < s.ring.writePosition) := by
  obtain ⟨-, hlow, -⟩ := h.waiting hi hp
  rw [Ring.isResident_eq_decide h.ring, hlive, decide_eq_true (Nat.le_trans hlow hpast)]
  rfl

theorem Reliable.written (h : Reliable origin s) (hl : LeftBy s i r k f) : s.ring.writePosition = f.start + f.copied := by
  obtain ⟨g, hg, hbrings⟩ := h.supplied.serving k hl.slot
  obtain rfl := Option.some.inj (hg.symm.trans hl.feed)
  exact (hbrings hl.live).written

/-- It was told, and what it waits for will not come. -/
theorem Reliable.ended (h : Reliable origin s) (hl : LeftBy s i r k f) : ∃ last, r.phase = .waiting last true ∧
    s.ring.isResident last = false ∧ s.ring.availability last = .ok (.ended (f.start + f.copied)) := by
  obtain ⟨last, woken, hp, hmissing⟩ := hl.waits
  obtain ⟨-, -, hle⟩ := h.waiting hl.read hp
  have hmark := h.marked.ended k f hl.slot hl.feed hl.stopped hl.live
  have hbehind : f.start + f.copied ≤ last := by
    rw [h.isResident_of_waiting hl.read hp hl.live hle, h.written hl] at hmissing
    exact Nat.not_lt.mp (of_decide_eq_false hmissing)
  have hend : s.ring.availability last = .ok (.ended (f.start + f.copied)) := by
    rw [Ring.availability_of_open hl.live, hmissing, hmark, h.written hl]
    simp [hbehind]
  cases woken with
  | true => exact ⟨last, hp, hmissing, hend⟩
  | false => cases hend.symm.trans (h.alert r last (List.mem_of_getElem? hl.read) hp)

theorem fallShort_eq (hcurrent : s.current? = some f) (i : Nat) (r : Reading) (stop : Nat) :
    s.fallShort i r stop = s.finish i r (.error (f.blame stop)) := by
  rw [fallShort, hcurrent]
  rfl

theorem Reliable.remains (h : Reliable origin s) (hopen : s.closed = false) (hl : LeftBy s i r k f)
    (ht : ReadTurn origin s i r t) : ∃ result, t.result? i = some result ∧ Remains r f result := by
  obtain ⟨last, hp, -, hend⟩ := h.ended hl
  obtain ⟨-, -, hmark, -⟩ := Ring.stop_of_ended hend
  have hthere := h.isResident_of_waiting hl.read hp hl.live (Nat.le_refl r.position)
  rw [h.written hl] at hthere
  rcases ht.looks_or_late hp with ⟨-, hlook⟩ | ⟨hno, -⟩
  · cases hlook with
    | closed hc => cases hopen.symm.trans hc
    | shut _ hshut => cases hl.live.symm.trans hshut
    | @served _ hres _ bytes left htaken =>
      rw [hthere] at hres
      refine ⟨.ok ⟨bytes, decide (s.stream.size ≤ r.position + bytes.size)⟩, ?_, .bytes (of_decide_eq_true hres) ?_⟩
      · rw [finish_eq, result?_endTask (by simpa [tasks_setRing] using hl.lt)]
        rfl
      · rw [htaken.size, h.written hl]
    | @short stop _ _ hstop _ _ hmiss =>
      obtain rfl := Option.some.inj (hmark.symm.trans hstop)
      refine ⟨_, ?_, .nothing ?_⟩
      · rw [fallShort_eq hl.current?, finish_eq, result?_endTask hl.lt]
        rfl
      · rcases hmiss with hbehind | hnot
        · exact hbehind
        · rw [hthere] at hnot
          exact Nat.not_lt.mp (of_decide_eq_false hnot)
    | late _ hpending => cases hend.symm.trans hpending
    | waits _ hpending => cases hend.symm.trans hpending
  · cases hno

/-- A feed beside the one in the slot was told to stop, and does no more than to mark the ring again. -/
theorem Reliable.leftBy_feedStep {j : Nat} (h : Reliable origin s) (hl : LeftBy s i r k f) (hready : s.feedReady j = true) :
    LeftBy (s.feedStep origin j) i r k f := by
  obtain ⟨g, hj, hr⟩ := exists_of_feedReady hready
  have hjk : j ≠ k := by
    rintro rfl
    obtain rfl := Option.some.inj (hj.symm.trans hl.feed)
    cases hl.stopped.symm.trans (Feed.isStopped_of_isReady hr)
  have hc : g.cancelled = true := by
    rcases h.stray j g hj with hslot | hc
    · exact absurd (Option.some.inj (hslot.symm.trans hl.slot)) hjk
    · exact hc
  have ht : Reringed s (s.feedStep origin j) _ := reringed_feedStep h.ring hj hr
  have hring : (s.feedStep origin j).ring = { s.ring with stop := some s.ring.writePosition } := by
    rw [ring_feedStep hj, Feed.advance_of_cancelled hc hr]
    exact congrArg Ring.After.ring (Ring.finish_of_open hl.live)
  obtain ⟨last, hp, hmissing, -⟩ := h.ended hl
  refine ⟨?_, ⟨last, true, hp, ?_⟩, ?_, ht.slot.trans hl.slot, ?_, hl.stopped⟩
  · have hsame : (Task.read r).wake = .read r := by
      rcases r with ⟨len, position, wait, deadline, phase⟩
      obtain rfl : phase = _ := hp
      rfl
    rw [ht.tasks, List.getElem?_map, hl.read]
    split
    · exact congrArg some hsame
    · rfl
  · rw [hring]
    exact hmissing
  · rw [hring]
    exact hl.live
  · rw [feedStep_eq hj, feeds_setFeed, List.getElem?_set_ne hjk, feeds_setRing, List.getElem?_map, hl.feed]
    split
    · exact congrArg some (Feed.wake_of_isStopped hl.stopped)
    · rfl

/-- Left alone, the read waits on until it has the turn. -/
theorem Reliable.leftBy_goes (h : Reliable origin s) (hopen : s.closed = false) (hl : LeftBy s i r k f)
    (hgoes : Goes origin s t) :
    t.closed = false ∧ LeftBy t i r k f ∨ ∃ result, t.result? i = some result ∧ Remains r f result := by
  obtain ⟨m, hm, rfl⟩ := hgoes
  cases m with
  | feed j =>
    obtain ⟨g, hj, hr⟩ := exists_of_feedReady hm
    have ht : Reringed s (s.feedStep origin j) _ := reringed_feedStep h.ring hj hr
    exact Or.inl ⟨ht.closed.trans hopen, h.leftBy_feedStep hl hm⟩
  | task j =>
    right
    obtain rfl := Option.some.inj (hm.1.symm.trans (hl.head h.lined))
    rw [Session.move, Session.turn, hl.read]
    exact h.remains hopen hl (h.readTurn hl.read hm.2)
  | stream =>
    simp only [CanMove, isForsaken, Bool.and_eq_true, List.all_eq_true] at hm
    cases (hm.1.2 _ (List.mem_of_getElem? hl.read)).symm.trans hl.isOver

theorem Reliable.comes (h : Reliable origin s) (hopen : s.closed = false) (hl : LeftBy s i r k f) :
    Comes origin (fun t => ∃ result, t.result? i = some result ∧ Remains r f result) s := by
  refine comes_of_isSettled fun t hst hrest => ?_
  have hall : Reliable origin t ∧ (t.closed = false ∧ LeftBy t i r k f ∨
      ∃ result, t.result? i = some result ∧ Remains r f result) := by
    clear hrest
    induction hst with
    | refl => exact ⟨h, Or.inl ⟨hopen, hl⟩⟩
    | tail _ hgoes ih =>
      obtain ⟨hreliable, hcase⟩ := ih
      obtain ⟨m, hm, rfl⟩ := hgoes
      have hstep : Weave origin Keeping _ _ := .move hm
      refine ⟨hreliable.weave hstep, ?_⟩
      rcases hcase with ⟨hstill, hleft⟩ | ⟨result, hresult, hremains⟩
      · exact hreliable.leftBy_goes hstill hleft ⟨m, hm, rfl⟩
      · exact Or.inr ⟨result, result?_of_over (fun _ => over_move hm) hresult, hremains⟩
  obtain ⟨hreliable, ⟨-, hleft⟩ | hdone⟩ := hall
  · obtain ⟨last, hp, -⟩ := hreliable.ended hleft
    refine absurd ?_ (hrest.not_canMove (.task i))
    refine ⟨hleft.head hreliable.lined, ?_⟩
    simp only [taskReady, hleft.read, hp, Bool.true_or]
  · exact hdone

/-! ### Reads that fail -/

/-- Why read `i` fails in its turn while the stream is open. -/
inductive Fails (origin : Origin σ) (s : Session σ) (i : Nat) (r : Reading) : Failure → Prop
  | late (hd : r.deadline ≤ s.now) : Fails origin s i r (lateness r)
  /-- The connection that it asks for is refused. -/
  | refused {cause : Failure} (hslot : s.slot = none)
    (hconn : origin.connect s.stream.url s.attempts (s.restartAt r) = .error cause) : Fails origin s i r cause
  | shut (hshut : s.ring.isClosed = true) : Fails origin s i r (.ring .closed)
  | left {k : Nat} {f : Feed σ} {cause : Failure} (h : LeftBy s i r k f) (hmiss : s.ring.isResident r.position = false)
    (hremains : Remains r f (.error cause)) : Fails origin s i r cause
  /-- The feed in the slot is at work, and the ring marked finished all the same. -/
  | crossed {f : Feed σ} {stop : Nat} (hcurrent : s.current? = some f) (hgo : f.isStopped = false)
    (hlive : s.ring.isClosed = false) (hstop : s.ring.stop = some stop) : Fails origin s i r (.ended stop)

/-- A feed that a read is not stale for has not stopped before what the read wants. -/
theorem lastWanted_lt_stop (hlen : 0 < r.len) (hin : r.position < s.stream.size) (hstale : s.isStale r = false)
    (hstop : s.ring.stop = some stop) : s.lastWanted r < stop := by
  obtain ⟨-, -, hreach⟩ := window_of_isStale hstale
  simp only [isStale, hstop, Bool.or_eq_false_iff, decide_eq_false_iff_not] at hstale
  obtain ⟨-, hwanted⟩ := hstale
  unfold lastWanted
  unfold wantedEnd at hwanted ⊢
  omega

/-- A read that fails where it looks is late, or the ring is given up or marked finished before what it looks for. -/
theorem Looked.fails (hlt : i < s.tasks.length) (hopen : s.closed = false) (hl : Looked s i r last t)
    (ht : t.result? i = some (.error e)) :
    r.deadline ≤ s.now ∧ e = lateness r ∨ s.ring.isClosed = true ∧ e = .ring .closed ∨
      ∃ stop, s.ring.availability last = .ok (.ended stop) ∧ t = s.fallShort i r stop := by
  cases hl with
  | closed hc => cases hopen.symm.trans hc
  | shut _ hshut =>
    rw [finish_eq, result?_endTask hlt] at ht
    obtain rfl := Except.error.inj (Option.some.inj ht)
    exact Or.inr (Or.inl ⟨hshut, rfl⟩)
  | served =>
    rw [finish_eq, result?_endTask (by simpa [tasks_setRing] using hlt)] at ht
    cases ht
  | @short stop _ hlive hstop hle hlast =>
    refine Or.inr (Or.inr ⟨stop, ?_, rfl⟩)
    rw [Ring.availability_of_open hlive, hlast, hstop]
    simp [hle]
  | late _ _ hd =>
    rw [finish_eq, result?_endTask (by simpa using hlt)] at ht
    obtain rfl := Except.error.inj (Option.some.inj ht)
    exact Or.inl ⟨hd, rfl⟩
  | waits =>
    rw [result?_setTask (by simpa using hlt)] at ht
    cases ht

theorem stop_joined (s : Session σ) (source : σ) (start : Nat) : (s.joined source start).ring.stop = none := by
  rw [ring_joined]
  rfl

theorem now_joined (s : Session σ) (source : σ) (start : Nat) : (s.joined source start).now = s.now := by
  rw [joined, now_note]
  exact now_setRing ..

/-- A read that waits while the ring is marked finished before its bytes, fails for the feed in the slot. -/
theorem Reliable.fails_waiting (h : Reliable origin s) (hopen : s.closed = false) (hi : s.tasks[i]? = some (.read r))
    (hp : r.phase = .waiting last true) (hend : s.ring.availability last = .ok (.ended stop))
    (hturn : ReadTurn origin s i r t) (hshort : t = s.fallShort i r stop) (ht : t.result? i = some (.error e)) :
    Fails origin s i r e := by
  obtain ⟨hlive, hmissing, hstop, -⟩ := Ring.stop_of_ended hend
  obtain ⟨hslot, -, -⟩ := h.waiting hi hp
  obtain ⟨k, hk⟩ := Option.isSome_iff_exists.mp hslot
  obtain ⟨f, hf, -⟩ := h.supplied.serving k hk
  cases hgo : f.isStopped with
  | true =>
    have hleft : LeftBy s i r k f := ⟨hi, ⟨last, true, hp, hmissing⟩, hlive, hk, hf, hgo⟩
    obtain ⟨result, hresult, hremains⟩ := h.remains hopen hleft hturn
    obtain rfl := Option.some.inj (hresult.symm.trans ht)
    refine .left hleft ?_ hremains
    cases hremains with
    | nothing hnone =>
      rw [h.isResident_of_waiting hi hp hlive (Nat.le_refl _), h.written hleft]
      exact decide_eq_false (Nat.not_lt.mpr hnone)
  | false =>
    have hcurrent : s.current? = some f := by rw [Session.current?, hk, Option.bind_some, hf]
    rw [hshort, fallShort_eq hcurrent, finish_eq, result?_endTask (List.getElem?_eq_some_iff.mp hi).1] at ht
    obtain rfl := Except.error.inj (Option.some.inj ht)
    have hblame : f.blame stop = .ended stop := by rw [Feed.blame, h.unfailed k f hf hgo]
    rw [hblame]
    exact .crossed hcurrent hgo hlive hstop

theorem Reliable.fails (h : Reliable origin s) (hopen : s.closed = false) (hi : s.tasks[i]? = some (.read r))
    (hgo : (Task.read r).isOver = false) (hturn : ReadTurn origin s i r t) (ht : t.result? i = some (.error e)) :
    Fails origin s i r e := by
  have hlt : i < s.tasks.length := (List.getElem?_eq_some_iff.mp hi).1
  have hwhole := hturn
  cases hturn with
  | closed _ hc => cases hopen.symm.trans hc
  | dismiss =>
    rw [result?_setTask (s := s.dismiss _) hlt] at ht
    cases ht
  | restart hold hr =>
    cases hr with
    | shut hshut =>
      rw [finish_eq, result?_endTask hlt] at ht
      obtain rfl := Except.error.inj (Option.some.inj ht)
      rw [ringFailure, hopen]
      exact .shut hshut
    | refused _ hconn =>
      rw [finish_eq, result?_endTask (by simpa using hlt)] at ht
      obtain rfl := Except.error.inj (Option.some.inj ht)
      exact .refused (h.slot_of_restart hi hold) hconn
    | connected hlive _ hlook =>
      rcases hlook.fails (by simpa using hlt) (by simpa using hopen) ht with ⟨hd, rfl⟩ | ⟨hshut, -⟩ | ⟨stop, hend, -⟩
      · rw [now_joined] at hd
        exact .late hd
      · rw [ring_joined, Ring.isClosed_emptied] at hshut
        cases hlive.symm.trans hshut
      · obtain ⟨-, -, hstop, -⟩ := Ring.stop_of_ended hend
        cases (stop_joined ..).symm.trans hstop
  | look hlast hl =>
    rcases hl.fails hlt hopen ht with ⟨hd, rfl⟩ | ⟨hshut, rfl⟩ | ⟨stop, hend, hshort⟩
    · exact .late hd
    · exact .shut hshut
    · rcases hlast with ⟨-, -, hstale, rfl⟩ | hp
      · obtain ⟨-, -, hstop, hle⟩ := Ring.stop_of_ended hend
        obtain ⟨hlen, hin⟩ := h.asked r (List.mem_of_getElem? hi) hgo
        exact absurd (lastWanted_lt_stop hlen hin hstale hstop) (Nat.not_lt.mpr hle)
      · exact h.fails_waiting hopen hi hp hend hwhole hshort ht
  | late _ hd =>
    rw [finish_eq, result?_endTask hlt, hopen] at ht
    obtain rfl := Except.error.inj (Option.some.inj ht)
    exact .late hd

/-- The owner gives a result only to a read that starts, and on an open stream none that is a failure. -/
theorem starts_of_gives {a : Act} (hopen : s.closed = false) (hs : s.result? i = none)
    (ht : (s.act a).result? i = some result) : i = s.tasks.length ∧ ∃ d, result = .ok d := by
  cases a with
  | start len position timeout =>
    have hpushed : ∃ new turns, s.start len position timeout = { s with tasks := s.tasks ++ [new], turns } ∧
        ∀ result, new.result? = some result → ∃ d, result = .ok d := by
      unfold Session.start
      simp only [hopen, Bool.false_eq_true, if_false]
      repeat' split
      · exact ⟨_, _, rfl, fun result hresult => ⟨_, (Option.some.inj hresult).symm⟩⟩
      · exact ⟨_, _, rfl, fun result hresult => ⟨_, (Option.some.inj hresult).symm⟩⟩
      · exact ⟨_, _, rfl, fun result hresult => nomatch hresult⟩
    obtain ⟨new, turns, he, hnew⟩ := hpushed
    rw [act, he] at ht
    rcases result?_of_push (s := s) ht rfl with hold | ⟨hi, hgiven⟩
    · cases hs.symm.trans hold
    · exact ⟨hi, hnew result hgiven⟩
  | abandon j => cases (result?_abandon hs j).symm.trans ht
  | close => cases (result?_startClose hs).symm.trans ht
  | letGo => cases hs.symm.trans ht

/-! ### Any step -/

theorem LeftBy.slot_before (h : LeftBy s i r k f) (horderly : u.Orderly) (hus : Weaves origin may u s)
    (hwaits : u.WaitsFrom i low) : u.slot = some k := by
  have hgo : ¬ s.Over i := by
    rintro ⟨x, hx, hover⟩
    obtain rfl := Option.some.inj (h.read.symm.trans hx)
    cases h.isOver.symm.trans hover
  rw [← horderly.slot_weaves hwaits hus hgo]
  exact h.slot

theorem Reliable.remains_weave (h : Reliable origin s) (hopen : s.closed = false) (hl : LeftBy s i r k f)
    (hstep : Weave origin may s t) (ht : t.result? i = some result) : Remains r f result := by
  cases hstep with
  | move hm =>
    obtain ⟨r', hi, -, hready, he⟩ := gives_move hm hl.result? ht
    obtain rfl := Task.read.inj (Option.some.inj (hi.symm.trans hl.read))
    rw [he] at ht
    have hturn : ReadTurn origin s i r' _ := h.readTurn hi hready
    obtain ⟨result', hresult, hremains⟩ := h.remains hopen hl hturn
    obtain rfl := Option.some.inj (hresult.symm.trans ht)
    exact hremains
  | wait => cases hl.result?.symm.trans ht
  | act =>
    obtain ⟨hi, -⟩ := starts_of_gives hopen hl.result? ht
    exact absurd hi (Nat.ne_of_lt hl.lt)

theorem Reliable.fails_weave (h : Reliable origin s) (hopen : s.closed = false)
    (hstep : Weave origin may s t) (hs : s.result? i = none) (ht : t.result? i = some (.error e)) :
    ∃ r, s.tasks[i]? = some (.read r) ∧ Fails origin s i r e := by
  cases hstep with
  | move hm =>
    obtain ⟨r, hi, -, hready, he⟩ := gives_move hm hs ht
    rw [he] at ht
    exact ⟨r, hi, h.fails hopen hi (isOver_eq_false_of_taskReady hi hready) (h.readTurn hi hready) ht⟩
  | wait => cases hs.symm.trans ht
  | act =>
    obtain ⟨-, d, hd⟩ := starts_of_gives hopen hs ht
    cases hd

/-- Where no read is given up that waits for a feed to stop, nobody marks the ring while the feed in the slot is at
    work. -/
theorem stop_of_running (hnew : IsNew s₀) (hs : Weaves origin Unhurried s₀ s) (hcurrent : s.current? = some f)
    (hgo : f.isStopped = false) (hlive : s.ring.isClosed = false) : s.ring.stop = none := by
  have hfresh := hnew.sound origin fun _ => .any
  have hsound := hfresh.weaves (fun _ _ => id) (hfresh.patient_weaves hs)
  obtain ⟨k, hk, hf⟩ := Option.bind_eq_some_iff.mp hcurrent
  obtain ⟨g, hg, hserves⟩ := hsound.serving k hk
  obtain rfl := Option.some.inj (hg.symm.trans hf)
  obtain ⟨-, hfills⟩ := hserves.fills hlive
  rw [hfills.stop, hgo]
  rfl

/-- Whatever the owner of a new stream does and in whatever order the steps are taken, let the stream be open. A feed
    that has stopped has as its failure what it kept of the reason for which it stopped. Let a read wait for bytes that
    are not there while the feed in the slot has stopped. Then that feed has served the read as long as it waited; the
    read gets the bytes that the feed brought, or if there are none fails with what is to be blamed on the feed; and left
    alone, it does. In any step in which a read fails, it is late, or is refused the connection that it asks for, or the
    ring is given up; or it is left in that way by the feed in the slot, its first byte not being there. But for an owner
    who gives up a read that waits for a feed to stop, there is no other case: while the feed in the slot is at work, the
    ring is not marked finished. -/
theorem failures_are_those_of_the_feed (hnew : IsNew s₀) (hs : Weaves origin may s₀ s) (hopen : s.closed = false) :
    (∀ i r k f, LeftBy s i r k f →
      (∃ reason, StoppedFor origin may s₀ s k reason ∧ f.failure = reason.failure) ∧
      (∀ u low, Weaves origin may s₀ u → Weaves origin may u s → u.WaitsFrom i low → u.slot = some k) ∧
      (∀ t result, Weave origin may s t → t.result? i = some result → Remains r f result) ∧
      Comes origin (fun t => ∃ result, t.result? i = some result ∧ Remains r f result) s) ∧
    (∀ t i e, Weave origin may s t → s.result? i = none → t.result? i = some (.error e) →
      ∃ r, s.tasks[i]? = some (.read r) ∧ Fails origin s i r e) ∧
    ((∀ u a, may u a → u.Unhurried a) → ∀ f, s.current? = some f → f.isStopped = false → s.ring.isClosed = false →
      s.ring.stop = none) := by
  have hreliable : Reliable origin s := (hnew.reliable origin).weaves hs
  refine ⟨fun i r k f hleft => ⟨?_, fun u low hu hus hwaits => ?_, fun t result hstep hresult => ?_, ?_⟩,
    fun t i e hstep hnone hfailed => ?_, fun hmay f hcurrent hgo hlive => ?_⟩
  · exact stopped_for hnew hs hleft.feed hleft.stopped
  · exact hleft.slot_before (hnew.orderly.weaves hu) hus hwaits
  · exact hreliable.remains_weave hopen hleft hstep hresult
  · exact hreliable.comes hopen hleft
  · exact hreliable.fails_weave hopen hstep hnone hfailed
  · have hunhurried : Weaves origin Unhurried s₀ s :=
      Relation.ReflTransGen.mono (fun _ _ hstep => hstep.mono hmay) _ _ hs
    exact stop_of_running hnew hunhurried hcurrent hgo hlive

def failing (cause : Failure) : Origin Nat where
  connect := fun _ _ start => .ok start
  read := fun position _ => ⟨0, .error cause, position⟩
  read_le := by
    intro position limit bytes h
    cases h

/-- The second of two bytes is to be read, and the feed has stopped before it. -/
def leftBehind (cause : Failure) : Session Nat :=
  (((twoBytesThrough 2).start 1 1 none).turn (failing cause) 0).feedStep (failing cause) 0

/-- A failure that does not pass by itself is reported as it is, and of another only that the feed ended. -/
theorem second_byte_fails :
    Comes (failing (.configuration "proxy")) (fun t => t.result? 0 = some (.error (.configuration "proxy")))
      (leftBehind (.configuration "proxy")) ∧
    Comes (failing (.network "reset")) (fun t => t.result? 0 = some (.error (.ended 1)))
      (leftBehind (.network "reset")) := by
  have hfails : ∀ cause blamed,
      (cause = .configuration "proxy" ∧ blamed = cause ∨ cause = .network "reset" ∧ blamed = .ended 1) →
      Comes (failing cause) (fun t => t.result? 0 = some (.error blamed)) (leftBehind cause) := by
    intro cause blamed h
    have hnew : IsNew (twoBytesThrough 2) := ⟨_, _, _, _, _, _, _, _, _, rfl, rfl⟩
    have hstart : Weaves (failing cause) Unhurried (twoBytesThrough 2) ((twoBytesThrough 2).start 1 1 none) :=
      .single (.act (a := .start 1 1 none) (Or.inl hnew.isSettled))
    have hs : Weaves (failing cause) Unhurried (twoBytesThrough 2) (leftBehind cause) := by
      rcases h with ⟨rfl, -⟩ | ⟨rfl, -⟩
      all_goals exact (hstart.tail (.move (m := .task 0) ⟨rfl, rfl⟩)).tail (.move (m := .feed 0) rfl)
    obtain ⟨r, f, hleft, hposition, hend, hblame⟩ : ∃ r f, LeftBy (leftBehind cause) 0 r 0 f ∧ r.position = 1 ∧
        f.start + f.copied = 1 ∧ f.blame 1 = blamed := by
      rcases h with ⟨rfl, rfl⟩ | ⟨rfl, rfl⟩
      all_goals exact ⟨_, _, ⟨rfl, ⟨1, true, rfl, rfl⟩, rfl, rfl, rfl, rfl⟩, rfl, rfl, rfl⟩
    have hopen : (leftBehind cause).closed = false := by rcases h with ⟨rfl, -⟩ | ⟨rfl, -⟩ <;> rfl
    obtain ⟨hwaits, -⟩ := failures_are_those_of_the_feed hnew hs hopen
    obtain ⟨-, -, -, hcomes⟩ := hwaits 0 r 0 f hleft
    refine hcomes.mono fun t ht => ?_
    obtain ⟨result, hresult, hremains⟩ := ht
    rw [hresult]
    cases hremains with
    | bytes hsome => omega
    | nothing => rw [hend, hblame]
  exact ⟨hfails _ _ (Or.inl ⟨rfl, rfl⟩), hfails _ _ (Or.inr ⟨rfl, rfl⟩)⟩

end Session
end ReadAhead
