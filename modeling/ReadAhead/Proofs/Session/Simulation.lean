import ReadAhead.Proofs.Session.Reference
import ReadAhead.Proofs.Session.Result

/-! A stream whose source serves the whole file and does not fail behaves like the reference machine. Whatever
    a session does by itself is no step of the machine, or one, or two (`Exact.simulates`): a read begins when
    it first looks for its bytes, and is answered when they are there. How far the feed has come by then does
    not matter, since the read waits until the ring holds all that the window, the file and the read allow,
    and the ring never holds more than the file. -/

namespace ReadAhead
namespace Session
variable {σ : Type} {origin : Origin σ} {size : Nat} {s t : Session σ} {i last : Nat} {r : Reading}

/-! ### How much a read gets -/

/-- A feed that has stopped by itself has got the whole file. -/
theorem Fit.size_le_stop (h : Fit origin (fun _ => .whole size) s) (hslot : s.slot.isSome = true)
    (hopen : s.ring.isClosed = false) {stop : Nat} (hstop : s.ring.stop = some stop) : size ≤ stop := by
  obtain ⟨k, hk⟩ := Option.isSome_iff_exists.mp hslot
  obtain ⟨f, -, hs⟩ := h.serving k hk
  obtain ⟨-, hfills⟩ := hs.fills hopen
  have hmark := hfills.stop
  rw [hstop] at hmark
  cases hrun : f.isStopped with
  | false =>
    rw [hrun] at hmark
    cases hmark
  | true =>
    rw [hrun, if_pos rfl] at hmark
    obtain rfl := Option.some.inj hmark
    rcases hfills.ended hrun with ⟨hends, -⟩ | ⟨cause, hfails, -⟩
    · exact hends
    · cases hfails

section Share
variable (hwork : AtWork origin (fun _ => .whole size) s i r last) (hsize : s.stream.size = size)
  (hopen : s.ring.isClosed = false)

include hwork hsize hopen in
/-- The feed has got no more than the file. -/
theorem AtWork.writePosition_le_size : s.ring.writePosition ≤ size := by
  obtain ⟨k, hk⟩ := Option.isSome_iff_exists.mp hwork.slot
  obtain ⟨f, -, hs⟩ := hwork.fit.serving k hk
  obtain ⟨-, hfills⟩ := hs.fills hopen
  have hposition := hwork.asked.2
  by_cases hempty : s.ring.writePosition ≤ s.ring.start
  · have hlow := hwork.low
    omega
  · obtain ⟨b, -, hin⟩ := hfills.window (s.ring.writePosition - 1) (by omega) (by omega)
    have hin : s.ring.writePosition - 1 < size := hin
    omega

include hwork hsize in
theorem AtWork.last_lt_size : last < size := by
  have hasked := hwork.asked
  rw [hwork.target]
  unfold lastWanted wantedEnd
  omega

include hwork hsize hopen in
theorem AtWork.last_lt_stop {stop : Nat} (hstop : s.ring.stop = some stop) : last < stop :=
  Nat.lt_of_lt_of_le (hwork.last_lt_size hsize) (hwork.fit.size_le_stop hwork.slot hopen hstop)

include hwork hsize in
/-- A read that is served gets its share. -/
theorem AtWork.share {d : Delivery} (h : Served s i r last d t) :
    d.bytes.size = Reference.share s.stream s.ring.start r.len r.position ∧
      d.eof = decide (r.position + d.bytes.size = s.stream.size) := by
  obtain ⟨left, htaken, -⟩ := h.taken
  obtain ⟨hopen, hlow, -⟩ := (Ring.isResident_iff hwork.fit.ring).mp h.resident
  have hwritten := hwork.writePosition_le_size hsize hopen
  have hroom := Ring.writePosition_le hwork.fit.ring
  have hasked := hwork.asked
  have hres : s.ring.isResident last = true := by
    rcases h.enough with hres | ⟨stop, hstop, hle, -⟩
    · exact hres
    · exact absurd hle (Nat.not_le_of_lt (hwork.last_lt_stop hsize hopen hstop))
  obtain ⟨-, -, hlast⟩ := (Ring.isResident_iff hwork.fit.ring).mp hres
  have hcap := hwork.fit.capacity
  have htarget := hwork.target
  unfold lastWanted wantedEnd reach at htarget
  -- The last position waited for is resident, and it is the last that the window and the file allow.
  have hshare : d.bytes.size = Reference.share s.stream s.ring.start r.len r.position := by
    rw [htaken.size, Reference.share, ← hcap]
    omega
  refine ⟨hshare, ?_⟩
  rw [h.eof]
  have hbound := htaken.size
  exact decide_eq_decide.mpr (by omega)

end Share

/-! ### A read that looks -/

/-- Read `i` has begun, the window being where the ring begins. -/
def begun (s : Session σ) (i : Nat) (r : Reading) : Reference :=
  { s.reference.become i ⟨r.len, r.position, .queued⟩ .begun with window := some s.ring.start }

theorem getElem?_begun (hi : s.tasks[i]? = some (.read r)) :
    (s.begun i r).asks[i]? = some (some ⟨r.len, r.position, .begun⟩) := by
  have hlt : i < (s.tasks.map Task.ask?).length := by
    rw [List.length_map]
    exact (List.getElem?_eq_some_iff.mp hi).1
  exact List.getElem?_set_self hlt

/-- The session `u` shows as `s` does, but perhaps for the window. -/
structure Resembles (s u : Session σ) : Prop where
  closed : u.closed = s.closed
  opened : u.feeds.map Feed.start = s.feeds.map Feed.start
  asks : u.tasks.map Task.ask? = s.tasks.map Task.ask?

theorem resembles_note (s : Session σ) (mark : Mark) : Resembles s (s.note mark) := ⟨by simp, by simp, by simp⟩

theorem resembles_setRing (s : Session σ) (ring : Ring) (woke : Bool) : Resembles s (s.setRing ring woke) :=
  ⟨by simp, opened_setRing s ring woke, asks_setRing s ring woke⟩

theorem Resembles.trans {u v : Session σ} (h : Resembles s u) (h' : Resembles u v) : Resembles s v :=
  ⟨h'.closed.trans h.closed, h'.opened.trans h.opened, h'.asks.trans h.asks⟩

theorem Resembles.reference {u : Session σ} (h : Resembles s u) (hclosed : s.closed = false) (hslot : u.slot.isSome = true)
    (phase : Reading.Phase) (turns : List Nat) :
    Session.reference { u with tasks := u.tasks.set i (.read { r with phase }), turns } =
      { (s.begun i r).become i ⟨r.len, r.position, .begun⟩ phase.stage with window := some u.ring.start } := by
  refine Reference.ext (window_of_slot (h.closed.trans hclosed) hslot) h.opened ?_ h.closed
  show (u.tasks.set i (.read { r with phase })).map Task.ask? = ((s.tasks.map Task.ask?).set i _).set i _
  rw [List.map_set, h.asks, List.set_set]
  rfl

/-- Looking for its bytes, a read that has begun is answered, runs out of time, or waits. -/
theorem AtWork.simulates (hwork : AtWork origin (fun _ => .whole size) s i r last) (hsize : s.stream.size = size)
    (hclosed : s.closed = false) (hopen : s.ring.isClosed = false) (hl : Looked s i r last t) :
    Reference.Reaches s.stream (s.begun i r) t.reference := by
  have hask := getElem?_begun hwork.task
  cases hl with
  | closed hc =>
    rw [hclosed] at hc
    cases hc
  | shut _ hshut =>
    rw [hopen] at hshut
    cases hshut
  | short _ _ hstop hle =>
    exact absurd hle (Nat.not_le_of_lt (hwork.last_lt_stop hsize hopen hstop))
  | @served hc hres henough bytes left htaken =>
    have hserved : Served s i r last ⟨bytes, decide (s.stream.size ≤ r.position + bytes.size)⟩ _ :=
      ⟨hres, henough, ⟨left, htaken, rfl⟩, rfl⟩
    obtain ⟨hshare, heof⟩ := hwork.share hsize hserved
    simp only at hshare heof
    have hlike := (resembles_setRing s left true).trans (resembles_note _ .ready)
    have hslot : ((s.setRing left true).note .ready).slot.isSome = true := by simpa using hwork.slot
    have hstart : ((s.setRing left true).note .ready).ring.start = r.position + bytes.size := by
      rw [ring_note, ring_setRing, htaken.start]
    have hshows : ((((s.setRing left true).note .ready).finish i r
        (.ok ⟨bytes, decide (s.stream.size ≤ r.position + bytes.size)⟩))).reference = _ :=
      hlike.reference hclosed hslot _ _
    rw [hshows, hstart]
    have hanswer : Reference.Step s.stream (s.begun i r) _ := .answer hclosed hask rfl rfl
    simp only [← hshare] at hanswer
    simp only [Reading.Phase.stage, Except.map, heof]
    exact .single hanswer
  | late hc hpending hd =>
    have hslot : (s.note .filling).slot.isSome = true := by simpa using hwork.slot
    have hshows : ((s.note .filling).finish i r (.error (lateness r))).reference = _ :=
      (resembles_note s .filling).reference hclosed hslot _ _
    rw [hshows, ring_note]
    exact .single (.expire hclosed hask rfl)
  | waits hc hpending hd =>
    have hslot : (s.note .filling).slot.isSome = true := by simpa using hwork.slot
    have hshows : ((s.note .filling).setTask i (.read { r with phase := .waiting last false })).reference = _ :=
      (resembles_note s .filling).reference hclosed hslot _ _
    have hsame : (s.begun i r).become i ⟨r.len, r.position, .begun⟩ .begun = s.begun i r := by
      simp [begun, Reference.become, List.set_set]
    rw [hshows, ring_note, Reading.Phase.stage, hsame]
    exact .refl

/-! ### What the machine relies on -/

/-- Every connection within the file is accepted, and its source serves the whole file without failing,
    in answers of any size and after any time. -/
def ServesAll (origin : Origin σ) (stream : Stream) : Prop :=
  ∀ attempt start, start < stream.size → ∃ source, origin.connect stream.url attempt start = .ok source ∧
    ∀ limit, 0 < limit → origin.Honours (.whole stream.size) limit start source

/-- The ring is shut by closings only, a read that replaces the feed is outside the window, and every connection
    that was attempted has a feed. -/
structure Tidy (s : Session σ) : Prop where
  shut : s.ring.isClosed = true → s.closed = true
  astray : s.closed = false → ∀ r, .read r ∈ s.tasks → (Task.read r).old?.isSome = true →
    ¬ Reference.Covers s.stream s.ring.start r.position
  attempted : s.attempts = s.feeds.length

/-- What holds of a session besides, as long as its source serves the whole file and its owner holds it. -/
structure Exact (origin : Origin σ) (s : Session σ) : Prop extends Tidy s where
  sound : Sound origin (fun _ => .whole s.stream.size) s
  serves : ServesAll origin s.stream
  scratch : 0 < s.stream.scratch
  held : s.held = true
  closing : none ∈ s.reference.asks → s.closed = true

section Exact
variable (h : Exact origin s)

include h in
theorem Exact.offers : Offers origin (fun _ => .whole s.stream.size) s.stream := by
  intro attempt start source hstart hconn
  obtain ⟨served, hserved, hhonours⟩ := h.serves attempt start hstart
  rw [hconn] at hserved
  obtain rfl := Except.ok.inj hserved
  refine hhonours _ ?_
  have hscratch := h.scratch
  have hmargin := h.sound.margin
  have hcapacity := h.sound.capacity
  omega

include h in
theorem Exact.isClosed (hopen : s.closed = false) : s.ring.isClosed = false := by
  cases hshut : s.ring.isClosed with
  | false => rfl
  | true =>
    rw [h.shut hshut] at hopen
    cases hopen

/-! ### Turns of reads -/

include h in
theorem Exact.not_refused (hi : s.tasks[i]? = some (.read r)) (hgo : (Task.read r).isOver = false) (cause : Failure) :
    origin.connect s.stream.url s.attempts (s.restartAt r) ≠ .error cause := by
  intro hconn
  obtain ⟨hlen, hposition⟩ := h.sound.asked r (List.mem_of_getElem? hi) hgo
  have hstart : s.restartAt r < s.stream.size := Nat.lt_of_le_of_lt (Nat.sub_le _ _) hposition
  obtain ⟨source, hserved, -⟩ := h.serves s.attempts (s.restartAt r) hstart
  rw [hconn] at hserved
  cases hserved

include h in
/-- The feed is stale for positions outside the window only, since it does not stop before the end of the file. -/
theorem Exact.not_covers (hslot : s.slot.isSome = true) (hopen : s.closed = false) (hstale : s.isStale r = true) :
    ¬ Reference.Covers s.stream s.ring.start r.position := by
  rintro ⟨hlow, hhigh⟩
  rw [← h.sound.capacity] at hhigh
  have hnone : s.slot.isNone = false := by
    rw [Option.isNone_eq_false_iff]
    exact hslot
  simp only [isStale, hnone, Bool.false_or, Bool.or_eq_true, decide_eq_true_eq] at hstale
  rcases hstale with (hbefore | hbehind) | hshort
  · omega
  · unfold reach at hbehind
    omega
  · cases hstop : s.ring.stop with
    | none => simp [hstop] at hshort
    | some stop =>
      have hsize := h.sound.size_le_stop hslot (h.isClosed hopen) hstop
      simp only [hstop, decide_eq_true_eq] at hshort
      unfold wantedEnd at hshort
      omega

include h in
/-- Whoever was asked for before the read whose turn it is, has come to an end. -/
theorem Exact.first (hhead : s.turns.head? = some i) (j : Nat) (ask : Reference.Ask) (hji : j < i)
    (hj : s.reference.asks[j]? = some (some ask)) : ask.stage.isOver = true := by
  have hj : (s.tasks.map Task.ask?)[j]? = some (some ask) := hj
  rw [List.getElem?_map] at hj
  obtain ⟨task, htask, hask⟩ := Option.map_eq_some_iff.mp hj
  rw [Task.isOver_of_ask? hask]
  cases hover : task.isOver with
  | true => rfl
  | false =>
    have hle := h.sound.lined.head_le hhead ((h.sound.lined.mem_iff j).mpr ⟨task, htask, hover⟩)
    omega

/-- On a closed stream a read is refused. -/
theorem refuses (hclosed : s.closed = true) (hi : s.tasks[i]? = some (.read r)) (hgo : (Task.read r).isOver = false) :
    Reference.Reaches s.stream s.reference (s.finish i r (.error .closed)).reference := by
  have hstage : r.phase.stage.isOver = false := (Task.isOver_of_ask? rfl).trans hgo
  rw [finish_eq, reference_endTask hi (Or.inl hclosed)]
  exact .single (.refuse hclosed (getElem?_asks hi) hstage)

include h in
/-- A read begins in a window that covers its position. -/
theorem Exact.begins_inside (hhead : s.turns.head? = some i) (hi : s.tasks[i]? = some (.read r))
    (hp : r.phase = .queued) (hopen : s.closed = false) (hstale : s.isStale r = false) :
    Reference.Step s.stream s.reference (s.begun i r) := by
  obtain ⟨hslot, hlow, hhigh⟩ := window_of_isStale hstale
  have hwindow : s.reference.window = some s.ring.start := window_of_slot hopen hslot
  have hcovers : Reference.Covers s.stream s.ring.start r.position := by
    rw [reach, h.sound.capacity] at hhigh
    exact ⟨hlow, hhigh⟩
  have henter : Reference.enter s.stream s.reference.window r.position = (s.ring.start, []) := by
    simp [Reference.enter, hwindow, Option.filter, hcovers]
  have hask := getElem?_asks hi
  rw [hp] at hask
  have hstep : Reference.Step s.stream s.reference _ := .begin hopen hask rfl (h.first hhead)
  simp only [henter, List.append_nil] at hstep
  exact hstep

include h in
/-- A read that replaces the feed is outside the window, or there is none. -/
theorem Exact.outside (hhead : s.turns.head? = some i) (hi : s.tasks[i]? = some (.read r))
    (hold : (r.phase = .queued ∧ s.closed = false ∧ s.slot = none) ∨
      ∃ old, r.phase = .replacing old ∧ s.hasStopped old = true) (hopen : s.closed = false) :
    s.reference.window.filter (fun start => Reference.Covers s.stream start r.position) = none := by
  show s.window.filter _ = none
  rcases hold with ⟨hp, -, hslot⟩ | ⟨old, hp, -⟩
  · have hnone : s.tasks.any (·.old?.isSome) = false := by
      rw [List.any_eq_false]
      intro x hx
      rw [old?_of_mem h.sound.lined hhead hi (by simp [Task.old?, hp]) x hx]
      simp
    rw [window, hslot, hnone]
    simp
  · have hsome : (Task.read r).old?.isSome = true := by simp [Task.old?, hp]
    have hstray := h.astray hopen r (List.mem_of_getElem? hi) hsome
    unfold window
    split
    · rfl
    · split
      · simp [Option.filter, hstray]
      · rfl

include h in
/-- It begins with one connection, a margin before its position. -/
theorem Exact.begins_outside (hhead : s.turns.head? = some i) (hi : s.tasks[i]? = some (.read r))
    (hold : (r.phase = .queued ∧ s.closed = false ∧ s.slot = none) ∨
      ∃ old, r.phase = .replacing old ∧ s.hasStopped old = true) (hopen : s.closed = false) (source : σ) :
    Reference.Step s.stream s.reference ((s.joined source (s.restartAt r)).begun i r) := by
  have hstage : r.phase.stage = .queued := by
    rcases hold with ⟨hp, -, -⟩ | ⟨old, hp, -⟩
    · rw [hp]
      rfl
    · rw [hp]
      rfl
  have henter : Reference.enter s.stream s.reference.window r.position = (s.restartAt r, [s.restartAt r]) := by
    simp only [Reference.enter, h.outside hhead hi hold hopen]
    rfl
  have hask := getElem?_asks hi
  rw [hstage] at hask
  have hstep : Reference.Step s.stream s.reference _ := .begin hopen hask rfl (h.first hhead)
  rw [henter] at hstep
  have hshows : (s.joined source (s.restartAt r)).begun i r =
      { s.reference.become i ⟨r.len, r.position, .queued⟩ .begun with
        window := some (s.restartAt r), opened := s.reference.opened ++ [s.restartAt r] } := by
    have hwake : s.feeds.map (Feed.start ∘ Feed.wake) = s.feeds.map Feed.start :=
      List.map_congr_left fun f _ => (Feed.same_wake f).start
    have hasks : s.tasks.map (Task.ask? ∘ Task.wake) = s.tasks.map Task.ask? :=
      List.map_congr_left fun x _ => Task.ask?_wake x
    simp [begun, reference, Reference.become, hwake, hasks, Feed.fresh]
  rw [hshows]
  exact hstep

include h in
theorem Exact.simulates_restart (hi : s.tasks[i]? = some (.read r)) (hhead : s.turns.head? = some i)
    (hold : (r.phase = .queued ∧ s.closed = false ∧ s.slot = none) ∨
      ∃ old, r.phase = .replacing old ∧ s.hasStopped old = true) (hr : Restarted origin s i r t) :
    Reference.Reaches s.stream s.reference t.reference := by
  have hreplaces := h.sound.replaces hi hhead hold
  cases hr with
  | shut hshut =>
    have hclosed := h.shut hshut
    rw [ringFailure, if_pos hclosed]
    exact refuses hclosed hi hreplaces.going
  | refused hopen hconn => exact absurd hconn (h.not_refused hi hreplaces.going _)
  | @connected source _ hopen hconn hlook =>
    have hclosed : s.closed = false := by
      cases hc : s.closed with
      | false => rfl
      | true =>
        rw [h.sound.shut hc] at hopen
        cases hopen
    have hwork := hreplaces.atWork h.offers hopen hconn
    have hsimulates := hwork.simulates (by rw [stream_joined]) (by rw [closed_joined, hclosed])
      (by rw [ring_joined, Ring.isClosed_emptied, hopen]) hlook
    rw [stream_joined] at hsimulates
    exact .head (h.begins_outside hhead hi hold hclosed source) hsimulates

include h in
theorem Exact.simulates_look (hi : s.tasks[i]? = some (.read r)) (hhead : s.turns.head? = some i)
    (hlast : (r.phase = .queued ∧ s.closed = false ∧ s.isStale r = false ∧ last = s.lastWanted r) ∨
      r.phase = .waiting last true) (hl : Looked s i r last t) :
    Reference.Reaches s.stream s.reference t.reference := by
  have hwork := h.sound.atWork hi hhead hlast
  cases hclosed : s.closed with
  | true =>
    -- A read that looks at a closed stream finds it closed, whatever the ring holds.
    have hfinish : t = s.finish i r (.error .closed) := by
      cases hl with
      | closed => rfl
      | _ hc =>
        rw [hclosed] at hc
        cases hc
    rw [hfinish]
    exact refuses hclosed hi hwork.going
  | false =>
    have hsimulates := hwork.simulates rfl hclosed (h.isClosed hclosed) hl
    rcases hlast with ⟨hp, -, hstale, -⟩ | hp
    · exact .head (h.begins_inside hhead hi hp hclosed hstale) hsimulates
    · -- It has begun before, so the machine is where it left it.
      have hask := getElem?_asks hi
      rw [hp] at hask
      have hbegun : s.begun i r = s.reference := by
        refine Reference.ext (window_of_slot hclosed hwork.slot).symm rfl ?_ rfl
        exact set_of_getElem? hask
      rwa [hbegun] at hsimulates

include h in
/-- A turn of a read shows as steps of the machine, or not at all. -/
theorem Exact.simulates_readTurn (hi : s.tasks[i]? = some (.read r)) (hhead : s.turns.head? = some i)
    (ht : ReadTurn origin s i r t) : Reference.Reaches s.stream s.reference t.reference := by
  cases ht with
  | closed hp hc => exact refuses hc hi (by simp [Task.isOver, hp])
  | dismiss hp hc hstale hslot => rw [reference_dismiss hi hp hc hslot]
  | restart hold hr => exact h.simulates_restart hi hhead hold hr
  | look hlast hl => exact h.simulates_look hi hhead hlast hl
  | @late last hp hd =>
    have hgo : (Task.read r).isOver = false := by simp [Task.isOver, hp]
    cases hclosed : s.closed with
    | true => exact refuses hclosed hi hgo
    | false =>
      have hstage : r.phase.stage = .begun := by rw [hp]; rfl
      have hold : (Task.read r).old? = none := by simp [Task.old?, hp]
      simp only [Bool.false_eq_true, if_false]
      rw [finish_eq, reference_endTask hi (Or.inr ⟨hold, rfl⟩)]
      exact .single (.expire hclosed (getElem?_asks hi) hstage)

/-! ### Whatever else happens -/

/-- On a closed stream a closing does not show. -/
theorem reference_closeStep {c : Closing} (hclosed : s.closed = true) (hi : s.tasks[i]? = some (.close c)) :
    (s.closeStep i c).reference = s.reference := by
  have hasks : ∀ d : Closing, (s.tasks.set i (.close d)).map Task.ask? = s.tasks.map Task.ask? := by
    intro d
    rw [List.map_set]
    refine set_of_getElem? ?_
    rw [List.getElem?_map, hi]
    rfl
  have hwindow : ∀ u : Session σ, u.closed = true → u.window = s.window := by
    intro u hu
    rw [window_of_closed hu, window_of_closed hclosed]
  have hend : (s.endTask i (.close .done)).reference = s.reference := Reference.ext (hwindow _ hclosed) rfl (hasks _) rfl
  unfold closeStep
  split
  · split
    · exact Reference.ext (hwindow _ hclosed) (opened_dismiss s _) (hasks _) rfl
    · exact hend
  · split
    · exact hend
    · rfl
  · rfl

theorem reference_push {task : Task} (hnone : task.old? = none) (turns : List Nat) :
    Session.reference { s with tasks := s.tasks ++ [task], turns } =
      { s.reference with asks := s.reference.asks ++ [task.ask?] } := by
  refine Reference.ext ?_ rfl ?_ rfl
  · show Session.window _ = s.window
    simp [window, hnone]
  · show (s.tasks ++ [task]).map Task.ask? = s.tasks.map Task.ask? ++ [task.ask?]
    simp

theorem reference_start (s : Session σ) (len position : Nat) (timeout : Option Duration) :
    (s.start len position timeout).reference = { s.reference with
      asks := s.reference.asks ++ [some ⟨len, position, Reference.outset s.stream s.closed len position⟩] } := by
  unfold start Reference.outset
  simp only
  split
  · exact reference_push rfl _
  · split
    · exact reference_push rfl _
    · split
      · exact reference_push rfl _
      · exact reference_push rfl _

theorem reference_startClose (s : Session σ) :
    s.startClose.reference = { s.reference with window := none, asks := s.reference.asks ++ [none], closed := true } := by
  cases hclosed : s.closed with
  | true =>
    have hagain : s.startClose = { s with tasks := s.tasks ++ [.close .done] } := by rw [startClose, if_pos hclosed]
    rw [hagain, reference_push rfl]
    exact Reference.ext (window_of_closed hclosed) rfl rfl hclosed
  | false =>
    have hfirst : s.startClose = { s.expire with
        closed := true, tasks := s.expire.tasks ++ [.close .queued], turns := s.expire.turns ++ [s.expire.tasks.length] } := by
      rw [startClose, if_neg (by simp [hclosed])]
      simp [expire, tasks_setRing]
    have hasks : s.expire.tasks.map Task.ask? = s.tasks.map Task.ask? := asks_setRing s _ _
    have hopened : s.expire.feeds.map Feed.start = s.feeds.map Feed.start := by
      rw [expire, feeds_cancelAll, List.map_map]
      exact opened_setRing s _ _
    rw [hfirst]
    refine Reference.ext (by simp [reference, window]) hopened ?_ rfl
    show (s.expire.tasks ++ [Task.close .queued]).map Task.ask? = s.tasks.map Task.ask? ++ [none]
    rw [List.map_append, hasks]
    rfl

include h in
/-- What the owner does, other than giving up the stream, is a step of the machine or does not show. -/
theorem Exact.simulates_act (hrest : s.IsSettled) (a : Act) (hheld : (s.act a).held = true) :
    Reference.Reaches s.stream s.reference (s.act a).reference := by
  cases a with
  | start len position timeout =>
    rw [act, reference_start]
    exact .single (.ask len position)
  | abandon i =>
    simp only [act, abandon]
    split
    · rename_i r hi
      split
      · exact .refl
      · rename_i hgo
        have hstage : r.phase.stage.isOver = false := (Task.isOver_of_ask? rfl).trans (by simpa using hgo)
        have hold := h.sound.old?_of_isSettled hrest (List.mem_of_getElem? hi)
        rw [reference_endTask hi (Or.inr ⟨hold, rfl⟩)]
        exact .single (.drop (getElem?_asks hi) hstage)
    · exact .refl
  | close =>
    rw [act, reference_startClose]
    exact .single .close
  | letGo => cases hheld

include h in
/-- Whatever happens to a session that its owner goes on holding, is no step of the machine, or some. -/
theorem Exact.simulates (hstep : Step origin s t) (hheld : t.held = true) :
    Reference.Reaches s.stream s.reference t.reference := by
  cases hstep with
  | @move m hm =>
    cases m with
    | feed k =>
      obtain ⟨f, hk, hr⟩ := exists_of_feedReady hm
      have hstart : (s.feedStep origin k).ring.start = s.ring.start := by
        rw [ring_feedStep hk]
        exact (Feed.worked_advance h.sound.ring origin hr).start
      rw [move, (reringed_feedStep h.sound.ring hk hr).reference hstart]
    | task i =>
      obtain ⟨hhead, hready⟩ := hm
      rw [move, turn]
      split
      · rename_i r hi
        exact h.simulates_readTurn hi hhead (h.sound.readTurn hi hready)
      · rename_i c hi
        have hclosed := h.closing (List.mem_map.mpr ⟨_, List.mem_of_getElem? hi, rfl⟩)
        rw [reference_closeStep hclosed hi]
      · exact .refl
    | stream =>
      have hforsaken : s.isForsaken = true := hm
      simp [isForsaken, h.held] at hforsaken
  | wait => exact .refl
  | act a hrest => exact h.simulates_act hrest a hheld

end Exact

end Session
end ReadAhead
