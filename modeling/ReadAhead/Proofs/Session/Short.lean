import ReadAhead.Proofs.Session.Answer

/-! Why a read gets fewer bytes than it asked for. While it waits, nobody moves the read cursor
    (`Orderly.waitsFrom_weaves`), so that it is served out of the window it began to wait in. It gets all that is
    there from its position on; and where that is less than it wanted, the window is full, or the feed has stopped
    right behind the bytes (`AtWork.short`). -/

namespace ReadAhead

@[simp] theorem Task.isWaiting_wake (t : Task) : t.wake.isWaiting = t.isWaiting := by
  rcases t with ⟨len, position, wait, deadline, phase⟩ | c
  · cases phase <;> rfl
  · rfl

theorem Task.exists_of_isWaiting {t : Task} (h : t.isWaiting = true) :
    ∃ r last woken, t = .read r ∧ r.phase = .waiting last woken := by
  rcases t with ⟨len, position, wait, deadline, phase⟩ | c
  · cases phase <;> first | exact ⟨_, _, _, rfl, rfl⟩ | cases h
  · cases h

namespace Session
variable {σ : Type} {origin : Origin σ} {terms : Nat → Origin.Terms} {may : Session σ → Act → Prop}
  {s s₀ t u : Session σ} {i last low : Nat} {r : Reading} {d : Delivery}

/-! ### Reads that wait -/

/-- Read `i` waits for its bytes, with the read cursor at `low`. -/
def WaitsFrom (s : Session σ) (i low : Nat) : Prop :=
  s.ring.start = low ∧ ∃ x, s.tasks[i]? = some x ∧ x.isWaiting = true

/-- Task `i` is over. -/
def Over (s : Session σ) (i : Nat) : Prop := ∃ x, s.tasks[i]? = some x ∧ x.isOver = true

theorem Over.weave (h : s.Over i) (hstep : Weave origin may s t) : t.Over i := by
  obtain ⟨x, hx, hover⟩ := h
  exact ⟨x, hstep.over hx hover, hover⟩

theorem WaitsFrom.lt (h : s.WaitsFrom i low) : i < s.tasks.length := by
  obtain ⟨-, x, hx, -⟩ := h
  exact (List.getElem?_eq_some_iff.mp hx).1

theorem WaitsFrom.told (woke : Bool) (h : s.WaitsFrom i low) (hstart : t.ring.start = s.ring.start)
    (ht : t.tasks[i]? = s.tasks[i]?.map fun x => if woke then x.wake else x) : t.WaitsFrom i low := by
  obtain ⟨hs, x, hx, hw⟩ := h
  rw [hx] at ht
  refine ⟨hstart.trans hs, _, ht, ?_⟩
  cases woke <;> simpa using hw

theorem WaitsFrom.of_eq (h : s.WaitsFrom i low) (hstart : t.ring.start = s.ring.start)
    (ht : t.tasks[i]? = s.tasks[i]?) : t.WaitsFrom i low :=
  h.told false hstart (by simpa using ht)

theorem WaitsFrom.push {task : Task} (h : s.WaitsFrom i low) (hstart : t.ring.start = s.ring.start)
    (ht : t.tasks = s.tasks ++ [task]) : t.WaitsFrom i low :=
  h.of_eq hstart (by rw [ht, List.getElem?_append_left h.lt])

theorem start_expire (s : Session σ) : s.expire.ring.start = s.ring.start := by
  rw [Session.expire, ring_cancelAll, ring_setRing, Ring.start_close]

theorem WaitsFrom.expire (h : s.WaitsFrom i low) : s.expire.WaitsFrom i low :=
  h.told s.ring.close.woke (start_expire s) (by
    rw [Session.expire, tasks_cancelAll, tasks_setRing, List.getElem?_map])

/-- A read that looks is over then, or waits on with the read cursor where it is. -/
theorem Looked.waitsFrom_or_over (hlt : i < s.tasks.length) (hl : Looked s i r last t) :
    t.WaitsFrom i s.ring.start ∨ t.Over i := by
  cases hl with
  | closed => exact Or.inr ⟨_, List.getElem?_set_self hlt, rfl⟩
  | shut => exact Or.inr ⟨_, List.getElem?_set_self hlt, rfl⟩
  | served => exact Or.inr ⟨_, List.getElem?_set_self (by simpa [tasks_setRing] using hlt), rfl⟩
  | short => exact Or.inr ⟨_, List.getElem?_set_self hlt, rfl⟩
  | late => exact Or.inr ⟨_, List.getElem?_set_self (by simpa using hlt), rfl⟩
  | waits => exact Or.inl ⟨by simp, _, List.getElem?_set_self (by simpa using hlt), rfl⟩

/-- The turn of a read that waits: it looks, or is late. -/
theorem ReadTurn.looks_or_late {woken : Bool} (hp : r.phase = .waiting last woken) (ht : ReadTurn origin s i r t) :
    woken = true ∧ Looked s i r last t ∨
      woken = false ∧ r.deadline ≤ s.now ∧ t = s.finish i r (.error (if s.closed then .closed else lateness r)) := by
  cases ht with
  | closed hq => cases hp.symm.trans hq
  | dismiss hq => cases hp.symm.trans hq
  | restart hold =>
    rcases hold with ⟨hq, -, -⟩ | ⟨old, hq, -⟩
    · cases hp.symm.trans hq
    · cases hp.symm.trans hq
  | look hlast hl =>
    left
    rcases hlast with ⟨hq, -⟩ | hq
    · cases hp.symm.trans hq
    · obtain ⟨rfl, rfl⟩ := Reading.Phase.waiting.inj (hp.symm.trans hq)
      exact ⟨rfl, hl⟩
  | late hq hd =>
    obtain ⟨-, rfl⟩ := Reading.Phase.waiting.inj (hp.symm.trans hq)
    exact Or.inr ⟨rfl, hd, rfl⟩

theorem ReadTurn.waitsFrom_or_over {woken : Bool} (hlt : i < s.tasks.length) (hp : r.phase = .waiting last woken)
    (ht : ReadTurn origin s i r t) : t.WaitsFrom i s.ring.start ∨ t.Over i := by
  rcases ht.looks_or_late hp with ⟨-, hl⟩ | ⟨-, -, rfl⟩
  · exact hl.waitsFrom_or_over hlt
  · exact Or.inr ⟨_, List.getElem?_set_self hlt, rfl⟩

/-- The owner moves no read cursor, and ends no read but by giving it up. -/
theorem WaitsFrom.act (h : s.WaitsFrom i low) (a : Act) : (s.act a).WaitsFrom i low ∨ (s.act a).Over i := by
  cases a with
  | start len position timeout =>
    left
    obtain ⟨r, -, -, -, htasks, -⟩ := tasks_start s len position timeout
    refine h.push (congrArg Ring.start ?_) htasks
    simp only [Session.act, Session.start]
    repeat' split
    all_goals rfl
  | abandon j =>
    simp only [Session.act, Session.abandon]
    split
    · split
      · exact Or.inl h
      · by_cases hij : j = i
        · subst hij
          exact Or.inr ⟨_, List.getElem?_set_self h.lt, rfl⟩
        · exact Or.inl (h.of_eq rfl (List.getElem?_set_ne hij))
    · exact Or.inl h
  | close =>
    left
    simp only [Session.act, Session.startClose]
    split
    · exact h.push rfl rfl
    · exact h.expire.push rfl rfl
  | letGo => exact Or.inl h

/-- A read that waits is over after a step, or waits on with the read cursor where it was. -/
theorem Orderly.waitsFrom_weave (h : s.Orderly) (hs : s.WaitsFrom i low) (hstep : Weave origin may s t) :
    t.WaitsFrom i low ∨ t.Over i := by
  cases hstep with
  | @move m hm =>
    obtain ⟨x, hx, hw⟩ := hs.2
    obtain ⟨r, last, woken, rfl, hp⟩ := Task.exists_of_isWaiting hw
    cases m with
    | feed k =>
      obtain ⟨f, hk, hr⟩ := exists_of_feedReady hm
      have ht : Reringed s (s.feedStep origin k) _ := reringed_feedStep h.ring hk hr
      refine Or.inl (hs.told _ ?_ (by rw [Session.move, ht.tasks, List.getElem?_map]))
      rw [Session.move, ring_feedStep hk, (Feed.worked_advance h.ring origin hr).start]
    | task j =>
      -- A read that waits has the turn.
      obtain rfl := Option.some.inj (hm.1.symm.trans (h.lined.head_of_waiting hx hp))
      have hturn : ReadTurn origin s j r _ := h.readTurn hx hm.2
      rw [Session.move, Session.turn, hx, ← hs.1]
      exact hturn.waitsFrom_or_over hs.lt hp
    | stream => exact Or.inl hs.expire
  | wait => exact Or.inl hs
  | @act a _ => exact hs.act a

theorem Orderly.waitsFrom_weaves (h : s.Orderly) (hs : s.WaitsFrom i low) (hweaves : Weaves origin may s t) :
    t.WaitsFrom i low ∨ t.Over i := by
  induction hweaves with
  | refl => exact Or.inl hs
  | tail hsu hstep ih =>
    rcases ih with hwaits | hover
    · exact (h.weaves hsu).waitsFrom_weave hwaits hstep
    · exact Or.inr (hover.weave hstep)

/-! ### Where a read looks -/

/-- The read cursor from which read `r` looks for its bytes when it does in its turn: where its feed starts, if it
    needs one. -/
def looksFrom (s : Session σ) (r : Reading) : Nat :=
  match r.phase with
  | .queued => if s.slot.isNone then s.restartAt r else s.ring.start
  | .replacing _ => s.restartAt r
  | _ => s.ring.start

theorem looksFrom_of_waitsFrom (hi : s.tasks[i]? = some (.read r)) (h : s.WaitsFrom i low) : s.looksFrom r = low := by
  obtain ⟨hs, x, hx, hw⟩ := h
  obtain rfl := Option.some.inj (hi.symm.trans hx)
  obtain ⟨r', last, woken, hr, hp⟩ := Task.exists_of_isWaiting hw
  obtain rfl := Task.read.inj hr
  simp only [looksFrom, hp]
  exact hs

theorem LooksIn.start (h : LooksIn origin s r u last) : u.ring.start = s.looksFrom r := by
  cases h with
  | here hlast =>
    rcases hlast with ⟨hp, -, hstale, -⟩ | hp
    · obtain ⟨k, hk⟩ := Option.isSome_iff_exists.mp (slot_of_isStale hstale)
      simp [looksFrom, hp, hk]
    · simp [looksFrom, hp]
  | joined hold =>
    rw [ring_joined, Ring.start_emptied]
    rcases hold with ⟨hp, -, hslot⟩ | ⟨old, hp, -⟩
    · simp [looksFrom, hp, hslot]
    · simp [looksFrom, hp]

/-! ### Reads that get less than they wanted -/

/-- A read that is served with less than it wanted has filled up the window, or its feed has stopped there. -/
theorem AtWork.short (h : AtWork origin terms s i r last) (hs : Served s i r last d t)
    (hshort : d.bytes.size < min r.len (s.stream.size - r.position)) :
    r.position + d.bytes.size = s.ring.start + s.ring.capacity ∨
      s.ring.stop = some (r.position + d.bytes.size) ∧ ∃ f, s.current? = some f ∧ f.isStopped = true := by
  obtain ⟨left, htaken, -⟩ := hs.taken
  obtain ⟨hopen, hlow, hhigh⟩ := (Ring.isResident_iff h.fit.ring).mp hs.resident
  -- It asked for more than it got, so it got all there was.
  have hall : s.ring.writePosition = r.position + d.bytes.size := by
    have hsize := htaken.size
    omega
  rcases hs.enough with hlast | ⟨stop, hstop, -⟩
  · left
    obtain ⟨-, -, hbehind⟩ := (Ring.isResident_iff h.fit.ring).mp hlast
    have hroom := Ring.writePosition_le h.fit.ring
    have htarget := h.target
    simp only [lastWanted, wantedEnd, reach] at htarget
    omega
  · right
    obtain ⟨k, hk⟩ := Option.isSome_iff_exists.mp h.slot
    obtain ⟨f, hf, hserves⟩ := h.fit.serving k hk
    have hmark := (hserves.fills hopen).2.stop
    rw [hall] at hmark
    have hcurrent : s.current? = some f := by rw [current?, hk, Option.bind_some, hf]
    cases hgo : f.isStopped with
    | true =>
      rw [hgo, if_pos rfl] at hmark
      exact ⟨hmark, f, hcurrent, hgo⟩
    | false =>
      rw [hgo, hstop] at hmark
      cases hmark

theorem Served.ring (h : Served s i r last d t) : t.ring.start = r.position + d.bytes.size ∧
    t.ring.capacity = s.ring.capacity ∧ t.ring.stop = s.ring.stop := by
  obtain ⟨left, htaken, rfl⟩ := h.taken
  rw [finish_eq, ring_endTask, ring_note, ring_setRing]
  exact ⟨htaken.start, htaken.capacity, htaken.stop⟩

theorem Served.current? (h : Served s i r last d t) : t.current? = s.current?.map Feed.wake := by
  obtain ⟨left, -, rfl⟩ := h.taken
  simp only [Session.current?, finish_eq, slot_endTask, slot_note, slot_setRing, feeds_endTask, feeds_note,
    feeds_setRing, if_true, List.getElem?_map]
  cases s.slot <;> rfl

/-- A read that gets bytes in a step has its turn there. -/
theorem Orderly.turn_of_delivered (h : s.Orderly) (hstep : Weave origin may s t) (hs : s.result? i = none)
    (hi : t.tasks[i]? = some (.read r)) (hdone : r.phase = .done (.ok d)) (hpos : 0 < d.bytes.size) :
    ∃ phase, s.tasks[i]? = some (.read { r with phase }) ∧ s.turns.head? = some i ∧ s.taskReady i = true ∧
      t = s.readStep origin i { r with phase } := by
  have hresult : t.result? i = some (.ok d) := result?_of_done hi hdone
  cases hstep with
  | move hm => exact h.turn_of_move hm hs hi hdone
  | wait => cases hs.symm.trans hresult
  | act =>
    rw [gives_act hs hresult d rfl] at hpos
    cases hpos

/-- A read of a byte at least within the file, whoever owns the stream and in whatever order the steps are taken: when
    it gets its bytes, they are one at least and no more than were asked for, and the read cursor stands behind them.
    It looked for them from where the read cursor stood as long as it waited. And under a patient owner it gets fewer
    bytes than the file has of what it asked for only if they reach to the end of the window from there, or if the feed
    has stopped, the ring being marked finished right behind them. (Without patience the mark may be that of a feed
    which was told to stop, made while the next one brings more.) -/
theorem short_reads_are_explained (hnew : IsNew s₀) (hs : Weaves origin may s₀ s) (hstep : Weave origin may s t)
    (hnone : s.result? i = none) (hi : t.tasks[i]? = some (.read r)) (hdone : r.phase = .done (.ok d))
    (hlen : 0 < r.len) (hposition : r.position < s₀.stream.size) :
    1 ≤ d.bytes.size ∧ d.bytes.size ≤ r.len ∧ t.ring.start = r.position + d.bytes.size ∧
      ∃ phase, s.tasks[i]? = some (.read { r with phase }) ∧
        (∀ u low, Weaves origin may s₀ u → Weaves origin may u s → u.WaitsFrom i low →
          s.looksFrom { r with phase } = low) ∧
        ((∀ u a, may u a → u.Patient a) → d.bytes.size < min r.len (s₀.stream.size - r.position) →
          r.position + d.bytes.size = s.looksFrom { r with phase } + t.ring.capacity ∨
            t.ring.stop = some (r.position + d.bytes.size) ∧ ∃ f, t.current? = some f ∧ f.isStopped = true) := by
  have hstream := stream_weaves hs
  have horderly := hnew.orderly.weaves hs
  obtain ⟨hanswered, -⟩ :=
    answered_of_weaves hnew (offers_any origin _) (hs.tail hstep) r d (List.mem_of_getElem? hi) hdone
  rw [hstep.stream, hstream] at hanswered
  have hpos := hanswered.pos hposition hlen
  obtain ⟨phase, hi', hhead, hready, rfl⟩ := horderly.turn_of_delivered hstep hnone hi hdone hpos
  have hresult : (s.readStep origin i { r with phase }).result? i = some (.ok d) := result?_of_done hi hdone
  obtain ⟨u, last, hlooks, hserved⟩ :=
    (horderly.readTurn hi' hready).served (List.getElem?_eq_some_iff.mp hi').1 hresult
  obtain ⟨hcursor, hcapacity, hstop⟩ := hserved.ring
  refine ⟨hpos, hanswered.le, hcursor, phase, hi', fun v low hv hvs hwaits => ?_, fun hmay hshort => ?_⟩
  · rcases (hnew.orderly.weaves hv).waitsFrom_weaves hwaits hvs with hstill | ⟨x, hx, hover⟩
    · exact looksFrom_of_waitsFrom hi' hstill
    · obtain rfl := Option.some.inj (hi'.symm.trans hx)
      rw [isOver_eq_false_of_taskReady hi' hready] at hover
      cases hover
  · have hsound := (hnew.sound origin fun _ => .any).weaves hmay hs
    have hwork := hsound.atWork_of_looksIn (offers_any origin _) hi' hhead hlooks
    rw [← hstream, ← hlooks.stream] at hshort
    rw [hcapacity, ← hlooks.start, hstop, hserved.current?]
    refine (hwork.short hserved hshort).imp_right ?_
    rintro ⟨hmark, f, hf, hstopped⟩
    exact ⟨hmark, f.wake, by rw [hf, Option.map_some], by simpa using hstopped⟩

def twoBytesThrough (capacity : Nat) : Session Nat :=
  onStorage (Stream.of 1 "http://origin/file" 2 ⟨capacity, 0⟩ (.ofSeconds 1) (.ofSeconds 1) 1)
    (Bytes.ofFn capacity fun _ => 0) 0

/-- A read of both bytes of a file of two through a ring of `capacity` bytes, once the source of `size` bytes was asked
    twice. -/
def bothWanted (capacity size : Nat) : Session Nat :=
  ((((twoBytesThrough capacity).start 2 0 none).turn (.counting size) 0).feedStep (.counting size) 0).feedStep
    (.counting size) 0

theorem weaves_bothWanted {capacity size : Nat} (h : capacity = 1 ∧ size = 2 ∨ capacity = 2 ∧ size = 1) :
    Weaves (.counting size) Patient (twoBytesThrough capacity) (bothWanted capacity size) := by
  have hstart : Weaves (.counting size) Patient (twoBytesThrough capacity)
      ((twoBytesThrough capacity).start 2 0 none) :=
    .single (.act (a := .start 2 0 none) fun _ _ hno => nomatch hno)
  rcases h with ⟨rfl, rfl⟩ | ⟨rfl, rfl⟩
  all_goals
    exact ((hstart.tail (.move (m := .task 0) ⟨rfl, rfl⟩)).tail (.move (m := .feed 0) rfl)).tail
      (.move (m := .feed 0) rfl)

def bothRead (capacity size : Nat) : Session Nat := (bothWanted capacity size).turn (.counting size) 0

/-- One byte fills a ring of one, and a source of one byte ends behind it. -/
theorem one_byte_of_two :
    (∃ r d, (bothRead 1 2).tasks[0]? = some (.read r) ∧ r.phase = .done (.ok d) ∧ d.bytes.size < r.len ∧
      r.position + d.bytes.size = 0 + (bothRead 1 2).ring.capacity) ∧
    ∃ r d, (bothRead 2 1).tasks[0]? = some (.read r) ∧ r.phase = .done (.ok d) ∧ d.bytes.size < r.len ∧
      (bothRead 2 1).ring.stop = some (r.position + d.bytes.size) := by
  have hexplained : ∀ capacity size, (capacity = 1 ∧ size = 2 ∨ capacity = 2 ∧ size = 1) →
      ∃ r d, (bothRead capacity size).tasks[0]? = some (.read r) ∧ r.phase = .done (.ok d) ∧ d.bytes.size < r.len ∧
        r.position + d.bytes.size = 1 ∧ (r.position + d.bytes.size = 0 + (bothRead capacity size).ring.capacity ∨
          (bothRead capacity size).ring.stop = some (r.position + d.bytes.size)) := by
    intro capacity size h
    have hnew : IsNew (twoBytesThrough capacity) := by
      rcases h with ⟨rfl, rfl⟩ | ⟨rfl, rfl⟩ <;> exact ⟨_, _, _, _, _, _, _, _, _, rfl, rfl⟩
    obtain ⟨r, d, hi, hdone, hlen, hposition, hsize⟩ : ∃ r d, (bothRead capacity size).tasks[0]? = some (.read r) ∧
        r.phase = .done (.ok d) ∧ r.len = 2 ∧ r.position = 0 ∧ d.bytes.size = 1 := by
      rcases h with ⟨rfl, rfl⟩ | ⟨rfl, rfl⟩ <;> exact ⟨_, _, rfl, rfl, rfl, rfl, rfl⟩
    have hturn : (bothWanted capacity size).CanMove (.task 0) := by
      rcases h with ⟨rfl, rfl⟩ | ⟨rfl, rfl⟩ <;> exact ⟨rfl, rfl⟩
    have hnone : (bothWanted capacity size).result? 0 = none := by rcases h with ⟨rfl, rfl⟩ | ⟨rfl, rfl⟩ <;> rfl
    have hwaits : (bothWanted capacity size).WaitsFrom 0 0 := by
      rcases h with ⟨rfl, rfl⟩ | ⟨rfl, rfl⟩ <;> exact ⟨rfl, _, rfl, rfl⟩
    have hweaves := weaves_bothWanted h
    have hin : r.position < (twoBytesThrough capacity).stream.size := by
      rw [hposition]
      exact Nat.two_pos
    obtain ⟨-, -, -, phase, -, hfrom, hshort⟩ :=
      short_reads_are_explained hnew hweaves (.move hturn) hnone hi hdone (by omega) hin
    rw [hfrom _ 0 hweaves .refl hwaits] at hshort
    refine ⟨r, d, hi, hdone, by omega, by omega, (hshort (fun _ _ => id) ?_).imp_right And.left⟩
    rw [hlen, hposition, hsize]
    exact Nat.one_lt_two
  obtain ⟨r, d, hi, hdone, hless, -, hfull⟩ := hexplained 1 2 (Or.inl ⟨rfl, rfl⟩)
  refine ⟨⟨r, d, hi, hdone, hless, hfull.resolve_right fun hstop => nomatch hstop⟩, ?_⟩
  obtain ⟨r, d, hi, hdone, hless, hone, hended⟩ := hexplained 2 1 (Or.inr ⟨rfl, rfl⟩)
  exact ⟨r, d, hi, hdone, hless, hended.resolve_left fun hfull => absurd (hone.symm.trans hfull) (by decide)⟩

end Session
end ReadAhead
