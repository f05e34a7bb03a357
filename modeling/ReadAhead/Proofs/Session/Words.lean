import ReadAhead.Proofs.Feed.Words
import ReadAhead.Proofs.Session.Extent

/-! The arithmetic of a session in numbers of 64 bits, each sum, product and difference checked. Only moves compute
    positions; what the owner does at once compares them. The ring comes no further than the declared size of the file
    or the end of its sources (`writePosition_weaves`), and all that is computed lies within a ring, or within the
    length of a read, of that. So where there is room for as much in 64 bits nothing wraps, however often the ring is
    filled and read and bound anew. -/

namespace ReadAhead
namespace Session
variable {σ : Type} {origin : Origin σ} {may : Session σ → Act → Prop} {s s₀ t : Session σ} {i k last : Nat} {r : Reading}

/-! ### Steps with checked arithmetic -/

def wantedEndWord? (s : Session σ) (r : Reading) : Option Nat := do
  let stop ← Word.add? r.position r.len
  some (min stop s.stream.size)

def reachWord? (s : Session σ) : Option Nat := do
  let start ← s.ring.startWord?
  Word.add? start s.ring.capacity

def isStaleWord? (s : Session σ) (r : Reading) : Option Bool := do
  let wanted ← s.wantedEndWord? r
  if s.slot.isNone then some true
  else do
    let start ← s.ring.startWord?
    let reach ← s.reachWord?
    some (decide (r.position < start) || decide (reach ≤ r.position) ||
      match s.ring.stop with
      | some stop => decide (stop < min wanted reach)
      | none => false)

def lastWantedWord? (s : Session σ) (r : Reading) : Option Nat := do
  let wanted ← s.wantedEndWord? r
  let reach ← s.reachWord?
  some (max (min wanted reach - 1) r.position)

def serveWord? (i : Nat) (r : Reading) (s : Session σ) : Option (Session σ) := do
  let taken ← s.ring.readAtWord? r.len r.position
  let s := s.setRing taken.ring taken.woke
  match taken.answer with
  | .error cause => some (s.finish i r (.error (s.ringFailure cause)))
  | .ok bytes => do
    let stop ← Word.add? r.position bytes.size
    some ((s.note .ready).finish i r (.ok ⟨bytes, decide (s.stream.size ≤ stop)⟩))

def lookWord? (i : Nat) (r : Reading) (last : Nat) (s : Session σ) : Option (Session σ) :=
  if s.closed then some (s.finish i r (.error .closed))
  else do
    match ← s.ring.availabilityWord? last with
    | .error cause => some (s.finish i r (.error (s.ringFailure cause)))
    | .ok .resident => s.serveWord? i r
    | .ok (.ended stop) => do
      let resident ← s.ring.isResidentWord? r.position
      if r.position < stop ∧ resident then s.serveWord? i r else some (s.fallShort i r stop)
    | .ok .pending =>
      let s := s.note .filling
      if r.deadline ≤ s.now then some (s.finish i r (.error (.timeout r.position (clampWord r.wait.millis))))
      else some (s.setTask i (.read { r with phase := .waiting last false }))

def connectWord? (origin : Origin σ) (i : Nat) (r : Reading) (start : Nat) (s : Session σ) : Option (Session σ) :=
  match origin.connect s.stream.url s.attempts start with
  | .error failure => some ((s.countAttempt.note .idle).finish i r (.error failure))
  | .ok source => do
    let s := (s.countAttempt.install source start).note .filling
    let last ← s.lastWantedWord? r
    s.lookWord? i r last

def restartWord? (origin : Origin σ) (i : Nat) (r : Reading) (s : Session σ) : Option (Session σ) := do
  -- The window that is given up is noted.
  let _ ← s.ring.startWord?
  let _ ← s.ring.writePositionWord?
  let start := r.position - s.stream.tier.margin
  let emptied := s.ring.reset start
  let s := s.setRing emptied.ring emptied.woke
  match emptied.answer with
  | .error cause => some (s.finish i r (.error (s.ringFailure cause)))
  | .ok () => s.connectWord? origin i r start

def readStepWord? (origin : Origin σ) (i : Nat) (r : Reading) (s : Session σ) : Option (Session σ) :=
  match r.phase with
  | .queued =>
    if s.closed then some (s.finish i r (.error .closed))
    else do
      let stale ← s.isStaleWord? r
      if stale then
        match s.slot with
        | some old => some ((s.dismiss old).setTask i (.read { r with phase := .replacing old }))
        | none => s.restartWord? origin i r
      else do
        let last ← s.lastWantedWord? r
        s.lookWord? i r last
  | .replacing old => if s.hasStopped old then s.restartWord? origin i r else some s
  | .waiting last woken =>
    if woken then s.lookWord? i r last
    else if r.deadline ≤ s.now then
      if s.closed then some (s.finish i r (.error .closed))
      else some (s.finish i r (.error (.timeout r.position (clampWord r.wait.millis))))
    else some s
  | .done _ | .abandoned => some s

def turnWord? (origin : Origin σ) (i : Nat) (s : Session σ) : Option (Session σ) :=
  match s.tasks[i]? with
  | some (.read r) => s.readStepWord? origin i r
  | some (.close c) => some (s.closeStep i c)
  | none => some s

def feedStepWord? (origin : Origin σ) (k : Nat) (s : Session σ) : Option (Session σ) :=
  match s.feeds[k]? with
  | none => some s
  | some f => do
    let after ← f.advanceWord? origin s.now s.ring
    some ((s.setRing after.ring after.woke).setFeed k after.feed)

def moveWord? (origin : Origin σ) (m : Mover) (s : Session σ) : Option (Session σ) :=
  match m with
  | .feed k => s.feedStepWord? origin k
  | .task i => s.turnWord? origin i
  | .stream => some s.expire

/-! ### Room -/

theorem wantedEndWord?_eq (hend : r.position + r.len < wordBound) (s : Session σ) :
    s.wantedEndWord? r = some (s.wantedEnd r) := by
  rw [wantedEndWord?, Word.add?_eq hend]
  rfl

/-- The ring comes no further than `bound`, nor does the file, and a ring beyond is still within 64 bits. -/
structure Roomy (bound : Nat) (s : Session σ) : Prop where
  ring : s.ring.Sound
  size : s.stream.size ≤ bound
  writePosition : s.ring.writePosition ≤ bound
  room : bound + s.ring.capacity < wordBound

namespace Roomy
variable {bound start : Nat}

theorem capacity_lt (h : s.Roomy bound) : s.ring.capacity < wordBound := Nat.lt_of_le_of_lt (Nat.le_add_left _ _) h.room

theorem bound_lt (h : s.Roomy bound) : bound < wordBound := Nat.lt_of_le_of_lt (Nat.le_add_right _ _) h.room

theorem writePosition_lt (h : s.Roomy bound) : s.ring.writePosition < wordBound :=
  Nat.lt_of_le_of_lt h.writePosition h.bound_lt

theorem of_eq (h : s.Roomy bound) (hstream : t.stream = s.stream) (hring : t.ring = s.ring) : t.Roomy bound := by
  refine ⟨?_, ?_, ?_, ?_⟩
  · rw [hring]
    exact h.ring
  · rw [hstream]
    exact h.size
  · rw [hring]
    exact h.writePosition
  · rw [hring]
    exact h.room

/-- There is room in a ring that is bound anew within the file. -/
theorem emptied (h : s.Roomy bound) (hstart : start ≤ s.stream.size) (woke : Bool) :
    (s.setRing (s.ring.emptied start) woke).Roomy bound := by
  refine ⟨?_, ?_, ?_, ?_⟩
  · rw [ring_setRing]
    exact Ring.sound_emptied h.ring start
  · rw [stream_setRing]
    exact h.size
  · rw [ring_setRing, Ring.writePosition_emptied]
    exact Nat.le_trans hstart h.size
  · rw [ring_setRing, Ring.capacity_emptied]
    exact h.room

theorem startWord?_eq (h : s.Roomy bound) : s.ring.startWord? = some s.ring.start :=
  Ring.startWord?_eq h.ring h.writePosition_lt

theorem reachWord?_eq (h : s.Roomy bound) : s.reachWord? = some s.reach := by
  have hstart := Ring.start_le_writePosition h.ring
  have hwrite := h.writePosition
  have hroom := h.room
  have hreach : s.ring.start + s.ring.capacity < wordBound := by omega
  rw [reachWord?, h.startWord?_eq]
  exact Word.add?_eq hreach

theorem isStaleWord?_eq (h : s.Roomy bound) (hend : r.position + r.len < wordBound) :
    s.isStaleWord? r = some (s.isStale r) := by
  rw [isStaleWord?, wantedEndWord?_eq hend, h.startWord?_eq, h.reachWord?_eq, isStale]
  cases s.slot <;> rfl

theorem lastWantedWord?_eq (h : s.Roomy bound) (hend : r.position + r.len < wordBound) :
    s.lastWantedWord? r = some (s.lastWanted r) := by
  rw [lastWantedWord?, wantedEndWord?_eq hend, h.reachWord?_eq]
  rfl

theorem serveWord?_eq (h : s.Roomy bound) (hend : r.position + r.len < wordBound) (i : Nat) :
    s.serveWord? i r = some (s.serve i r) := by
  rw [serveWord?, Ring.readAtWord?_eq h.ring h.capacity_lt h.writePosition_lt, serve]
  cases hres : s.ring.isResident r.position with
  | true =>
    obtain ⟨bytes, left, hread, ht⟩ := Ring.readAt_of_resident h.ring hres r.len
    have hsize := ht.size
    have hstop : r.position + bytes.size < wordBound := by omega
    simp only [hread, Option.bind_eq_bind, Option.bind_some, Word.add?_eq hstop]
  | false =>
    rw [Ring.readAt_of_not_resident hres]
    rfl

theorem lookWord?_eq (h : s.Roomy bound) (hend : r.position + r.len < wordBound) (i last : Nat) :
    s.lookWord? i r last = some (s.look i r last) := by
  rw [lookWord?, look, Ring.availabilityWord?_eq, Ring.isResidentWord?_eq, h.serveWord?_eq hend]
  by_cases hc : s.closed = true
  · rw [if_pos hc, if_pos hc]
  · rw [if_neg hc, if_neg hc, Option.bind_eq_bind, Option.bind_some]
    cases s.ring.availability last with
    | error cause => rfl
    | ok availability =>
      cases availability with
      | resident => rfl
      | ended stop =>
        simp only [Option.bind_eq_bind, Option.bind_some]
        split <;> rfl
      | pending =>
        simp only
        split <;> rfl

theorem connectWord?_eq (h : s.Roomy bound) (hend : r.position + r.len < wordBound) (i start : Nat) :
    s.connectWord? origin i r start = some (s.connect origin i r start) := by
  unfold connectWord? connect
  cases origin.connect s.stream.url s.attempts start with
  | error failure => rfl
  | ok source =>
    have hinstalled : ((s.countAttempt.install source start).note .filling).Roomy bound :=
      h.of_eq (stream_note ..) (ring_note ..)
    simp only [hinstalled.lastWantedWord?_eq hend, Option.bind_eq_bind, Option.bind_some, hinstalled.lookWord?_eq hend]

theorem restartWord?_eq (h : s.Roomy bound) (hend : r.position + r.len < wordBound) (hposition : r.position < s.stream.size)
    (i : Nat) : s.restartWord? origin i r = some (s.restart origin i r) := by
  have hstart : r.position - s.stream.tier.margin ≤ s.stream.size := Nat.le_trans (Nat.sub_le _ _) (Nat.le_of_lt hposition)
  rw [restartWord?, h.startWord?_eq, Ring.writePositionWord?_eq h.writePosition_lt, restart]
  simp only [Option.bind_eq_bind, Option.bind_some]
  cases hopen : s.ring.isClosed with
  | true => rw [Ring.reset_of_closed hopen]
  | false =>
    rw [Ring.reset_of_open hopen]
    exact (h.emptied hstart true).connectWord?_eq hend i _

theorem readStepWord?_eq (h : s.Roomy bound) (hend : r.position + r.len < wordBound) (hposition : r.position < s.stream.size)
    (i : Nat) : s.readStepWord? origin i r = some (s.readStep origin i r) := by
  rw [readStepWord?, readStep, h.isStaleWord?_eq hend, h.lastWantedWord?_eq hend, h.restartWord?_eq hend hposition]
  cases r.phase with
  | queued =>
    by_cases hc : s.closed = true
    · simp only [if_pos hc]
    · simp only [if_neg hc, Option.bind_eq_bind, Option.bind_some, h.lookWord?_eq hend]
      cases s.slot with
      | some old => split <;> rfl
      | none => split <;> rfl
  | replacing old =>
    simp only
    split <;> rfl
  | waiting last woken =>
    simp only [h.lookWord?_eq hend]
    cases woken with
    | true => rfl
    | false =>
      split
      · rfl
      · split
        · split <;> rfl
        · rfl
  | done => rfl
  | abandoned => rfl

end Roomy

/-! ### Runs -/

/-- A feed was told to stop, or it is the one in the slot and brings the bytes of the ring. -/
theorem Supplied.cancelled_or_brings {terms : Origin.Terms} {f : Feed σ} (h : Supplied origin terms s) (horderly : s.Orderly)
    (hk : s.feeds[k]? = some f) : f.cancelled = true ∨ f.Brings origin terms f.start s.ring := by
  rcases horderly.stray k f hk with hslot | hcancelled
  · obtain ⟨g, hg, hbrings⟩ := h.serving k hslot
    obtain rfl := Option.some.inj (hk.symm.trans hg)
    cases hopen : s.ring.isClosed with
    | true => exact Or.inl (horderly.stopping hopen f (List.mem_of_getElem? hk))
    | false => exact Or.inr (hbrings hopen)
  · exact Or.inl hcancelled

theorem Looked.writePosition (hl : Looked s i r last t) : t.ring.writePosition = s.ring.writePosition := by
  rcases hl.steady_or_takes with ht | ⟨bytes, left, -, htaken, ht⟩
  · rw [ht.ring]
  · rw [ht.ring, ring_setRing, htaken.writePosition]

theorem writePosition_expire (s : Session σ) : s.expire.ring.writePosition = s.ring.writePosition := by
  rw [Session.expire, ring_cancelAll, ring_setRing, Ring.writePosition_close]

/-- A read binds the ring no further on than where it reads. -/
theorem ReadTurn.writePosition_le (ht : ReadTurn origin s i r t) :
    t.ring.writePosition ≤ max s.ring.writePosition r.position := by
  have hkept : s.ring.writePosition ≤ max s.ring.writePosition r.position := Nat.le_max_left _ _
  have hstart : s.restartAt r ≤ max s.ring.writePosition r.position :=
    Nat.le_trans (Nat.sub_le _ _) (Nat.le_max_right _ _)
  cases ht with
  | closed => exact hkept
  | dismiss => exact hkept
  | restart _ hr =>
    cases hr with
    | shut => exact hkept
    | refused =>
      rw [finish_eq, ring_endTask, ring_note, ring_rebound, Ring.writePosition_emptied]
      exact hstart
    | connected _ _ hlook =>
      rw [hlook.writePosition, ring_joined, Ring.writePosition_emptied]
      exact hstart
  | look _ hl => exact hl.writePosition ▸ hkept
  | late => exact hkept

/-- A step takes the ring no further than the declared size of the file or the end of its sources. -/
theorem Supplied.writePosition_le {sourceSize : Nat} (h : Supplied origin (.within sourceSize) s) (horderly : s.Orderly)
    (hstep : Weave origin may s t) :
    t.ring.writePosition ≤ max s.ring.writePosition (max s.stream.size sourceSize) := by
  cases horderly.stepCase hstep with
  | feed hk hr =>
    have hle := Feed.writePosition_advance_le horderly.ring (h.cancelled_or_brings horderly hk) hr
    rw [ring_feedStep hk]
    omega
  | @read i r _ hhead hi hturn =>
    obtain ⟨x, hx, hgo⟩ := (horderly.lined.mem_iff i).mp (List.mem_of_mem_head? hhead)
    obtain rfl := Option.some.inj (hi.symm.trans hx)
    obtain ⟨-, hposition⟩ := horderly.asked r (List.mem_of_getElem? hi) hgo
    have hle := hturn.writePosition_le
    omega
  | close =>
    rw [ring_closeStep]
    exact Nat.le_max_left _ _
  | expire =>
    rw [writePosition_expire]
    exact Nat.le_max_left _ _
  | wait => exact Nat.le_max_left _ _
  | @act a _ =>
    rcases steady_or_closes a s with hs | ⟨-, tasks, turns, he⟩
    · rw [hs.ring]
      exact Nat.le_max_left _ _
    · rw [he]
      exact (writePosition_expire s).trans_le (Nat.le_max_left _ _)

theorem IsNew.writePosition_eq_zero (h : IsNew s) : s.ring.writePosition = 0 := by
  obtain ⟨node, url, size, tier, readTimeout, maxReadTimeout, scratch, storage, now, -, rfl⟩ := h
  exact (Nat.zero_add _).trans (Cursor.linear_zero _)

/-- So a run takes it no further. -/
theorem writePosition_weaves {sourceSize : Nat} (hnew : IsNew s₀)
    (hoffers : Offers origin (fun _ => .within sourceSize) s₀.stream) (hs : Weaves origin may s₀ s) :
    s.ring.writePosition ≤ max s.stream.size sourceSize := by
  induction hs with
  | refl => exact hnew.writePosition_eq_zero ▸ Nat.zero_le _
  | tail hsu hstep ih =>
    have horderly := hnew.orderly.weaves hsu
    have hsupplied := (hnew.supplied origin _).weaves hnew.orderly hoffers hsu
    have hle := hsupplied.writePosition_le horderly hstep
    rw [hstep.stream]
    exact Nat.le_trans hle (Nat.max_le.mpr ⟨ih, Nat.le_refl _⟩)

/-- Where there is room for the reads, and the sources end within the bound, every move is computed exactly. -/
theorem Roomy.moveWord?_eq {bound sourceSize : Nat} (h : s.Roomy bound) (horderly : s.Orderly)
    (hsupplied : Supplied origin (.within sourceSize) s) (hsource : sourceSize ≤ bound)
    (hend : ∀ r, .read r ∈ s.tasks → r.position < s.stream.size → r.position + r.len < wordBound) {m : Mover}
    (hm : s.CanMove m) : s.moveWord? origin m = some (s.move origin m) := by
  cases m with
  | feed k =>
    obtain ⟨f, hk, hr⟩ := exists_of_feedReady hm
    have hf := hsupplied.cancelled_or_brings horderly hk
    have hsize := Nat.lt_of_le_of_lt hsource h.bound_lt
    rw [moveWord?, feedStepWord?, hk, move, feedStep_eq hk]
    simp only [Feed.advanceWord?_eq horderly.ring h.capacity_lt h.writePosition_lt hsize hf hr, Option.bind_eq_bind,
      Option.bind_some]
  | task i =>
    obtain ⟨hhead, -⟩ := hm
    obtain ⟨x, hi, hgo⟩ := (horderly.lined.mem_iff i).mp (List.mem_of_mem_head? hhead)
    rw [moveWord?, turnWord?, move, turn, hi]
    cases x with
    | read r =>
      obtain ⟨-, hposition⟩ := horderly.asked r (List.mem_of_getElem? hi) hgo
      exact h.readStepWord?_eq (hend r (List.mem_of_getElem? hi) hposition) hposition i
    | close c => rfl
  | stream => rfl

/-- Whatever the owner of a new stream does and in whatever order the steps are taken: where the larger of the declared
    size and the size of the source, the capacity of the ring and the length of the longest read add up to a number of
    64 bits, every step can be taken in numbers of 64 bits and comes to the same. No sum, product or difference of
    positions, cursors and lengths wraps, not in a read or a restart, nor in the ring, nor in a feed with its count of
    bytes; and the sources of a reference file of that size give the same bytes. -/
theorem arithmetic_is_exact {sourceSize longest : Nat} (hnew : IsNew s₀) (hs : Weaves origin (fun _ _ => True) s₀ s)
    (hsource : ∀ attempt start source, origin.connect s₀.stream.url attempt start = .ok source →
      ∀ limit, origin.Honours (.within sourceSize) limit start source)
    (hlongest : ∀ r, .read r ∈ s.tasks → r.len ≤ longest)
    (hbound : max s₀.stream.size sourceSize + s₀.stream.tier.capacity + longest < wordBound) :
    s.ring.startWord? = some s.ring.start ∧ s.ring.writePositionWord? = some s.ring.writePosition ∧
      s.ring.freeWord? = some s.ring.free ∧
      (∀ m, s.CanMove m → s.moveWord? origin m = some (s.move origin m)) ∧
      ∀ source : Pattern.Source, source.traits.size ≤ sourceSize → ∀ n, source.readWord? n = some (source.read n) := by
  have hoffers : Offers origin (fun _ => .within sourceSize) s₀.stream :=
    fun attempt start source _ hconn => hsource attempt start source hconn _
  have horderly := hnew.orderly.weaves hs
  have hsupplied := (hnew.supplied origin _).weaves hnew.orderly hoffers hs
  have hwrite := writePosition_weaves hnew hoffers hs
  have hstream := stream_weaves hs
  rw [← hstream] at hbound
  have hroomy : s.Roomy (max s.stream.size sourceSize) := by
    refine ⟨horderly.ring, Nat.le_max_left _ _, hwrite, ?_⟩
    rw [hsupplied.capacity]
    exact Nat.lt_of_le_of_lt (Nat.le_add_right _ _) hbound
  have hend : ∀ r, .read r ∈ s.tasks → r.position < s.stream.size → r.position + r.len < wordBound := by
    intro r hr hposition
    have hlen := hlongest r hr
    omega
  refine ⟨hroomy.startWord?_eq, Ring.writePositionWord?_eq hroomy.writePosition_lt, Ring.freeWord?_eq horderly.ring,
    fun m hm => hroomy.moveWord?_eq horderly hsupplied (Nat.le_max_right _ _) hend hm, fun source hsize n => ?_⟩
  have hle : source.traits.size ≤ max s.stream.size sourceSize := Nat.le_trans hsize (Nat.le_max_right _ _)
  exact Pattern.Source.readWord?_eq (Nat.lt_of_le_of_lt hle hroomy.bound_lt) n

/-- So it is after a byte was read of a file of two. -/
theorem arithmetic_of_readAhead : (readAhead 1).ring.startWord? = some 1 ∧ (readAhead 1).ring.writePositionWord? = some 2 ∧
    ∀ m, (readAhead 1).CanMove m → (readAhead 1).moveWord? (.counting 2) m = some ((readAhead 1).move (.counting 2) m) := by
  have hread : ∃ r, (readAhead 1).tasks = [.read r] ∧ r.len = 1 := ⟨_, rfl, rfl⟩
  have hlongest : ∀ r, .read r ∈ (readAhead 1).tasks → r.len ≤ 1 := by
    obtain ⟨r, htasks, hlen⟩ := hread
    intro r' hr
    rw [htasks] at hr
    obtain rfl := Task.read.inj (List.mem_singleton.mp hr)
    exact Nat.le_of_eq hlen
  have hsource : ∀ attempt start source, (Origin.counting 2).connect declaredShort.stream.url attempt start = .ok source →
      ∀ limit, (Origin.counting 2).Honours (.within 2) limit start source := by
    intro attempt start source hconn limit
    obtain rfl := Except.ok.inj hconn
    exact Origin.counting_honours (fun p hp => hp) (fun _ _ => trivial) start
  obtain ⟨hstart, hwrite, -, hmoves, -⟩ :=
    arithmetic_is_exact isNew_declaredShort (weaves_readAhead (Or.inl rfl)) hsource hlongest (by decide)
  exact ⟨hstart, hwrite, hmoves⟩

end Session
end ReadAhead
