import ReadAhead.Proofs.Session.Orderly
import ReadAhead.Proofs.Session.Result

/-! What reads are answered with, whoever owns the stream. While the ring is open, the feed in the slot brings its
    bytes (`Supplied`): feeds that were told to stop may still mark the ring finished, but put nothing there. So a
    read that is done delivers at least a byte and at most as many as it asked for, within the terms of the
    sources, and says rightly whether they reach the declared size (`Answered`). -/

namespace ReadAhead
namespace Session
variable {σ : Type} {origin : Origin σ} {terms : Origin.Terms} {may : Session σ → Act → Prop} {s s₀ t : Session σ}
  {i last : Nat} {r : Reading} {d : Delivery}

/-! ### The feed in the slot -/

/-- The feed in the slot brings the bytes of the open ring. -/
structure Supplied (origin : Origin σ) (terms : Origin.Terms) (s : Session σ) : Prop where
  capacity : s.ring.capacity = s.stream.tier.capacity
  serving : ∀ k, s.slot = some k → ∃ f, s.feeds[k]? = some f ∧
    (s.ring.isClosed = false → f.Brings origin terms f.start s.ring)

theorem IsNew.supplied (h : IsNew s) (origin : Origin σ) (terms : Origin.Terms) : Supplied origin terms s := by
  obtain ⟨node, url, size, tier, readTimeout, maxReadTimeout, scratch, storage, now, hsize, rfl⟩ := h
  refine ⟨hsize, fun k hk => ?_⟩
  cases hk

theorem Supplied.of_eq (h : Supplied origin terms s) (hstream : t.stream = s.stream) (hring : t.ring = s.ring)
    (hfeeds : t.feeds = s.feeds) (hslot : t.slot = s.slot) : Supplied origin terms t := by
  refine ⟨?_, ?_⟩
  · rw [hring, hstream]
    exact h.capacity
  · rw [hring, hfeeds, hslot]
    exact h.serving

theorem Supplied.note (h : Supplied origin terms s) (mark : Mark) : Supplied origin terms (s.note mark) :=
  h.of_eq (stream_note ..) (ring_note ..) (feeds_note ..) (slot_note ..)

/-- A session without a feed in the slot, or with the ring closed, is supplied as it need be. -/
theorem supplied_of_idle (hcap : s.ring.capacity = s.stream.tier.capacity) (hslot : s.slot = none) :
    Supplied origin terms s := by
  refine ⟨hcap, fun k hk => ?_⟩
  rw [hslot] at hk
  cases hk

theorem Supplied.rering {woke : Bool} (h : Supplied origin terms s) (ht : Reringed s t woke)
    (hbrings : ∀ (k : Nat) (f g : Feed σ), s.slot = some k → s.feeds[k]? = some f → t.feeds[k]? = some g →
      t.ring.isClosed = false → f.Brings origin terms f.start s.ring → g.Brings origin terms g.start t.ring) :
    Supplied origin terms t := by
  refine ⟨?_, fun k hk => ?_⟩
  · rw [ht.capacity, ht.stream]
    exact h.capacity
  · rw [ht.slot] at hk
    obtain ⟨f, hf, hopen⟩ := h.serving k hk
    obtain ⟨g, hg, -⟩ := ht.onward k f hf
    refine ⟨g, hg, fun hgo => hbrings k f g hk hf hg hgo (hopen ?_)⟩
    -- A ring that is open now was open before.
    cases hshut : s.ring.isClosed with
    | false => rfl
    | true =>
      rw [ht.shut hshut] at hgo
      cases hgo

theorem Supplied.looked (h : Supplied origin terms s) (hring : s.ring.Sound) (hl : Looked s i r last t) :
    Supplied origin terms t := by
  rcases hl.steady_or_takes with ht | ⟨bytes, left, hres, htaken, ht⟩
  · exact h.of_eq ht.stream ht.ring ht.feeds ht.slot
  · obtain ⟨-, hlow, -⟩ := (Ring.isResident_iff hring).mp hres
    have hrering : Reringed s (s.setRing left true) true :=
      reringed_setRing htaken.sound htaken.capacity (fun hshut => htaken.isClosed_eq.trans hshut) fun hno => nomatch hno
    refine Supplied.of_eq (h.rering hrering fun k f g _ hf hg _ hbrings => ?_) ht.stream ht.ring ht.feeds ht.slot
    rw [feeds_setRing, List.getElem?_map, hf] at hg
    obtain rfl := Option.some.inj hg
    rw [ring_setRing]
    exact (Feed.same_wake f).start ▸ (hbrings.taken htaken hlow).wake

/-- A feed just started is there to bring all bytes from its start on. -/
theorem Supplied.joined {source : σ} {start : Nat} (h : Supplied origin terms s)
    (hoffers : Offers origin (fun _ => terms) s.stream) (hstart : start < s.stream.size)
    (hconn : origin.connect s.stream.url s.attempts start = .ok source) :
    Supplied origin terms (s.joined source start) := by
  have hfills := hoffers.fills h.capacity hstart hconn
  refine ⟨?_, fun k hk => ?_⟩
  · rw [ring_joined, stream_joined, Ring.capacity_emptied]
    exact h.capacity
  · rw [slot_joined] at hk
    obtain rfl := Option.some.inj hk
    refine ⟨Feed.fresh source start s.stream.scratch, by simp, fun _ => ?_⟩
    rw [ring_joined]
    exact hfills.brings

theorem Supplied.restarted (h : Supplied origin terms s) (hring : s.ring.Sound)
    (hoffers : Offers origin (fun _ => terms) s.stream) (hslot : s.slot = none) (hposition : r.position < s.stream.size)
    (hr : Restarted origin s i r t) : Supplied origin terms t := by
  have hcap : (s.rebound (s.restartAt r)).ring.capacity = s.stream.tier.capacity := by
    rw [ring_rebound, Ring.capacity_emptied]
    exact h.capacity
  cases hr with
  | shut => exact h.of_eq rfl rfl rfl rfl
  | refused =>
    have hbound : Supplied origin terms (s.rebound (s.restartAt r)) :=
      supplied_of_idle (by rw [hcap, stream_rebound]) (by rw [slot_rebound, hslot])
    exact (hbound.note .idle).of_eq rfl rfl rfl rfl
  | @connected source _ _ hconn hlook =>
    refine (h.joined hoffers ?_ hconn).looked ?_ hlook
    · exact Nat.lt_of_le_of_lt (Nat.sub_le _ _) hposition
    · rw [ring_joined]
      exact Ring.sound_emptied hring _

theorem Supplied.readTurn (h : Supplied origin terms s) (horderly : s.Orderly)
    (hoffers : Offers origin (fun _ => terms) s.stream) (hi : s.tasks[i]? = some (.read r))
    (hgo : (Task.read r).isOver = false) (ht : ReadTurn origin s i r t) : Supplied origin terms t := by
  cases ht with
  | closed => exact h.of_eq rfl rfl rfl rfl
  | dismiss => exact supplied_of_idle h.capacity rfl
  | restart hold hr =>
    obtain ⟨-, hposition⟩ := horderly.asked r (List.mem_of_getElem? hi) hgo
    exact h.restarted horderly.ring hoffers (horderly.slot_of_restart hi hold) hposition hr
  | look _ hl => exact h.looked horderly.ring hl
  | late => exact h.of_eq rfl rfl rfl rfl

theorem Supplied.turn (h : Supplied origin terms s) (horderly : s.Orderly)
    (hoffers : Offers origin (fun _ => terms) s.stream) (hready : s.taskReady i = true) :
    Supplied origin terms (s.turn origin i) := by
  unfold Session.turn
  split
  · rename_i r hi
    exact h.readTurn horderly hoffers hi (isOver_eq_false_of_taskReady hi hready) (horderly.readTurn hi hready)
  · unfold Session.closeStep
    split
    · split
      · exact supplied_of_idle h.capacity rfl
      · exact h.of_eq rfl rfl rfl rfl
    · split
      · exact h.of_eq rfl rfl rfl rfl
      · exact h
    · exact h
  · exact h

/-- A feed outside the slot does no more than mark the ring finished. -/
theorem Supplied.feedStep {k : Nat} (h : Supplied origin terms s) (horderly : s.Orderly) (hready : s.feedReady k = true) :
    Supplied origin terms (s.feedStep origin k) := by
  obtain ⟨f, hk, hr⟩ := exists_of_feedReady hready
  have hring := ring_feedStep hk origin
  refine h.rering (reringed_feedStep horderly.ring hk hr) fun j g g' hj hg hg' _ hbrings => ?_
  rw [hring]
  by_cases hkj : k = j
  · subst hkj
    obtain rfl := Option.some.inj (hk.symm.trans hg)
    rw [getElem?_feedStep hk] at hg'
    obtain rfl := Option.some.inj hg'
    rw [(Feed.same_advance horderly.ring origin hr).start]
    exact Feed.brings_advance horderly.ring hbrings hr
  · have hcancelled : f.cancelled = true := by
      rcases horderly.stray k f hk with hslot | hc
      · exact absurd (Option.some.inj (hslot.symm.trans hj)) hkj
      · exact hc
    rw [feedStep_eq hk, feeds_setFeed, List.getElem?_set_ne hkj, feeds_setRing, List.getElem?_map, hg] at hg'
    obtain rfl := Option.some.inj hg'
    rcases Feed.advance_cases origin s.ring hr with ⟨-, he⟩ | ⟨hgo, -⟩ | ⟨hgo, -⟩
    · rw [he]
      split
      · exact (Feed.same_wake g).start ▸ hbrings.finish.wake
      · exact hbrings.finish
    · rw [hcancelled] at hgo
      cases hgo
    · rw [hcancelled] at hgo
      cases hgo

theorem Supplied.expire (h : Supplied origin terms s) (hring : s.ring.Sound) : Supplied origin terms s.expire := by
  refine h.rering (reringed_expire hring) fun k f g _ _ _ hopen _ => ?_
  rw [Session.expire, ring_cancelAll, ring_setRing, Ring.isClosed_close] at hopen
  cases hopen

theorem Supplied.act (h : Supplied origin terms s) (hring : s.ring.Sound) (a : Act) : Supplied origin terms (s.act a) := by
  rcases steady_or_closes a s with hs | ⟨-, tasks, turns, he⟩
  · exact h.of_eq hs.stream hs.ring hs.feeds hs.slot
  · rw [he]
    exact (h.expire hring).of_eq rfl rfl rfl rfl

theorem Supplied.weave (h : Supplied origin terms s) (horderly : s.Orderly)
    (hoffers : Offers origin (fun _ => terms) s.stream) (hstep : Weave origin may s t) : Supplied origin terms t := by
  cases hstep with
  | @move m hm =>
    cases m with
    | feed k => exact h.feedStep horderly hm
    | task i => exact h.turn horderly hoffers hm.2
    | stream => exact h.expire horderly.ring
  | wait => exact h.of_eq rfl rfl rfl rfl
  | @act a _ => exact h.act horderly.ring a

theorem Supplied.weaves (h : Supplied origin terms s) (horderly : s.Orderly)
    (hoffers : Offers origin (fun _ => terms) s.stream) (hweaves : Weaves origin may s t) : Supplied origin terms t := by
  induction hweaves with
  | refl => exact h
  | tail hsu hstep ih =>
    rw [← stream_weaves hsu] at hoffers
    exact ih.weave (horderly.weaves hsu) hoffers hstep

/-! ### Answers -/

/-- The delivery has a byte at least if any was asked for within the file, no more than were asked for, all of them
    within the terms, and tells whether they reach the declared size. -/
structure Answered (terms : Origin.Terms) (stream : Stream) (r : Reading) (d : Delivery) : Prop where
  eof : d.eof = decide (stream.size ≤ r.position + d.bytes.size)
  le : d.bytes.size ≤ r.len
  pos : r.position < stream.size → 0 < r.len → 0 < d.bytes.size
  byte : ∀ j b, d.bytes.data[j]? = some b → terms.byte (r.position + j) b

/-- A read that is served in a supplied session is answered by its feed. -/
theorem Supplied.answered (h : Supplied origin terms s) (hring : s.ring.Sound) (hslot : s.slot.isSome = true)
    (hs : Served s i r last d t) : Answered terms s.stream r d := by
  obtain ⟨k, hk⟩ := Option.isSome_iff_exists.mp hslot
  obtain ⟨f, -, hbrings⟩ := h.serving k hk
  obtain ⟨left, htaken, -⟩ := hs.taken
  obtain ⟨hopen, hlow, hhigh⟩ := (Ring.isResident_iff hring).mp hs.resident
  have hsize := htaken.size
  refine ⟨hs.eof, by omega, fun _ hlen => by omega, fun j b hb => ?_⟩
  have hj : j < d.bytes.size := (Array.getElem?_eq_some_iff.mp hb).1
  obtain ⟨b', hb', hbyte⟩ := (hbrings hopen).window hopen (r.position + j) (by omega) (by omega)
  rw [htaken.byte j hj, hb'] at hb
  obtain rfl := Option.some.inj hb
  exact hbyte

theorem Orderly.slot_of_look (h : s.Orderly) (hi : s.tasks[i]? = some (.read r))
    (hlast : (r.phase = .queued ∧ s.closed = false ∧ s.isStale r = false ∧ last = s.lastWanted r) ∨
      r.phase = .waiting last true) : s.slot.isSome = true := by
  rcases hlast with ⟨-, -, hstale, -⟩ | hp
  · exact slot_of_isStale hstale
  · exact (h.waiting hi hp).1

theorem Supplied.answered_readStep (h : Supplied origin terms s) (horderly : s.Orderly)
    (hoffers : Offers origin (fun _ => terms) s.stream) (hi : s.tasks[i]? = some (.read r)) (hready : s.taskReady i = true)
    (ht : (s.readStep origin i r).result? i = some (.ok d)) : Answered terms s.stream r d := by
  have hlt : i < s.tasks.length := (List.getElem?_eq_some_iff.mp hi).1
  obtain ⟨u, last, hlooks, hserved⟩ := (horderly.readTurn hi hready).served hlt ht
  cases hlooks with
  | here hlast =>
    exact h.answered horderly.ring (horderly.slot_of_look hi hlast) hserved
  | @joined source _ _ hconn =>
    obtain ⟨-, hposition⟩ := horderly.asked r (List.mem_of_getElem? hi) (isOver_eq_false_of_taskReady hi hready)
    have hjoined := h.joined hoffers (Nat.lt_of_le_of_lt (Nat.sub_le _ _) hposition) hconn
    rw [← stream_joined s source (s.restartAt r)]
    refine hjoined.answered ?_ ?_ hserved
    · rw [ring_joined]
      exact Ring.sound_emptied horderly.ring _
    · rw [slot_joined]
      rfl

/-- A read gets its bytes after a feed was started. -/
theorem Supplied.feeds_readStep (h : Supplied origin terms s) (horderly : s.Orderly) (hi : s.tasks[i]? = some (.read r))
    (hready : s.taskReady i = true) (ht : (s.readStep origin i r).result? i = some (.ok d)) :
    0 < (s.readStep origin i r).feeds.length := by
  have hlt : i < s.tasks.length := (List.getElem?_eq_some_iff.mp hi).1
  obtain ⟨u, last, hlooks, hserved⟩ := (horderly.readTurn hi hready).served hlt ht
  obtain ⟨left, -, he⟩ := hserved.taken
  rw [he, finish_eq, feeds_endTask, feeds_note, feeds_setRing, List.length_map]
  cases hlooks with
  | here hlast =>
    obtain ⟨k, hk⟩ := Option.isSome_iff_exists.mp (horderly.slot_of_look hi hlast)
    obtain ⟨f, hf, -⟩ := h.serving k hk
    exact Nat.lt_of_le_of_lt (Nat.zero_le k) (List.getElem?_eq_some_iff.mp hf).1
  | joined =>
    rw [feeds_joined, List.length_append]
    exact Nat.succ_pos _

/-- A read that needs no turn is answered without bytes. -/
theorem answered_start {len position : Nat} {timeout : Option Duration}
    (hr : (s.start len position timeout).tasks[i]? = some (.read r)) (hs : s.result? i = none)
    (hdone : r.phase = .done (.ok d)) : Answered terms s.stream r d := by
  have hempty : ∀ j b, ByteArray.empty.data[j]? = some b → terms.byte (r.position + j) b := fun j b hb => by
    cases hb
  have hnew : ∀ {r' : Reading}, (s.tasks ++ [.read r'])[i]? = some (.read r) → r = r' := fun {r'} hpush => by
    rcases getElem?_push.mp hpush with hold | ⟨-, hnew⟩
    · cases hs.symm.trans (result?_of_done hold hdone)
    · exact (Task.read.inj hnew).symm
  unfold Session.start at hr
  simp only at hr
  split at hr
  · rw [hnew hr] at hdone
    cases hdone
  · split at hr
    · rename_i hend
      obtain rfl := hnew hr
      obtain rfl := Except.ok.inj (Reading.Phase.done.inj hdone)
      exact ⟨(decide_eq_true hend).symm, Nat.zero_le _, fun hlt => absurd hlt (Nat.not_lt.mpr hend), hempty⟩
    · rename_i hin
      split at hr
      · rename_i hzero
        obtain rfl := hnew hr
        obtain rfl := Except.ok.inj (Reading.Phase.done.inj hdone)
        exact ⟨(decide_eq_false hin).symm, Nat.zero_le _, fun _ hlen => absurd hzero (Nat.ne_of_gt hlen), hempty⟩
      · rw [hnew hr] at hdone
        cases hdone

/-- A move that gives a read its result is the turn of the read. -/
theorem Orderly.turn_of_move {m : Mover} {result : Except Failure Delivery} (h : s.Orderly) (hm : s.CanMove m)
    (hs : s.result? i = none) (hi : (s.move origin m).tasks[i]? = some (.read r)) (hdone : r.phase = .done result) :
    ∃ phase, s.tasks[i]? = some (.read { r with phase }) ∧ s.turns.head? = some i ∧ s.taskReady i = true ∧
      s.move origin m = s.readStep origin i { r with phase } := by
  have hresult : (s.move origin m).result? i = some result := result?_of_done hi hdone
  obtain ⟨r', hi', hhead, hready, he⟩ := gives_move hm hs hresult
  rw [he] at hi
  obtain ⟨phase, hmoved, -⟩ := h.moved_readTurn hi' (h.readTurn hi' hready)
  rw [hmoved.task (List.getElem?_eq_some_iff.mp hi').1] at hi
  obtain rfl := Task.read.inj (Option.some.inj hi)
  exact ⟨r'.phase, hi', hhead, hready, he⟩

/-- Every read that is done with bytes, or with none, was answered rightly, and with bytes only after a feed was
    started. -/
def AllAnswered (terms : Origin.Terms) (s : Session σ) : Prop :=
  ∀ r d, .read r ∈ s.tasks → r.phase = .done (.ok d) →
    Answered terms s.stream r d ∧ (0 < d.bytes.size → 0 < s.feeds.length)

theorem AllAnswered.weave (h : AllAnswered terms s) (hsupplied : Supplied origin terms s) (horderly : s.Orderly)
    (hoffers : Offers origin (fun _ => terms) s.stream) (hstep : Weave origin may s t) : AllAnswered terms t := by
  intro r d hr hdone
  obtain ⟨j, hj⟩ := List.mem_iff_getElem?.mp hr
  have hresult : t.result? j = some (.ok d) := result?_of_done hj hdone
  rw [hstep.stream]
  cases hs : s.result? j with
  | some result =>
    -- The read was done before, and is what it was.
    rw [result?_eq] at hs
    obtain ⟨x, hx, hxr⟩ := Option.bind_eq_some_iff.mp hs
    have hsame := hstep.over hx (Task.isOver_of_result? hxr)
    obtain rfl := Option.some.inj (hsame.symm.trans hj)
    obtain ⟨hanswered, hfed⟩ := h r d (List.mem_of_getElem? hx) hdone
    exact ⟨hanswered, fun hpos => Nat.lt_of_lt_of_le (hfed hpos) (horderly.feeds_le hstep)⟩
  | none =>
    cases hstep with
    | move hm =>
      obtain ⟨phase, hi, -, hready, he⟩ := horderly.turn_of_move hm hs hj hdone
      rw [he] at hresult ⊢
      have hanswered := hsupplied.answered_readStep horderly hoffers hi hready hresult
      exact ⟨⟨hanswered.eof, hanswered.le, hanswered.pos, hanswered.byte⟩,
        fun _ => hsupplied.feeds_readStep horderly hi hready hresult⟩
    | wait => cases hs.symm.trans hresult
    | @act a _ =>
      cases a with
      | start len position timeout =>
        refine ⟨answered_start hj hs hdone, fun hpos => ?_⟩
        rw [gives_act hs hresult d rfl] at hpos
        cases hpos
      | abandon k => cases (result?_abandon hs k).symm.trans hresult
      | close => cases (result?_startClose hs).symm.trans hresult
      | letGo => cases hs.symm.trans hresult

/-- Whatever the owner of a new stream does and in whatever order the steps are taken, every read that is done
    was answered rightly. -/
theorem answered_of_weaves (hnew : IsNew s₀) (hoffers : Offers origin (fun _ => terms) s₀.stream)
    (hweaves : Weaves origin may s₀ s) : AllAnswered terms s := by
  have horderly := hnew.orderly
  have hsupplied := hnew.supplied origin terms
  induction hweaves with
  | refl =>
    intro r d hr
    rw [hnew.tasks_eq_nil] at hr
    cases hr
  | tail hsu hstep ih =>
    have hstream := stream_weaves hsu
    refine ih.weave (hsupplied.weaves horderly hoffers hsu) (horderly.weaves hsu) ?_ hstep
    rw [hstream]
    exact hoffers

end Session
end ReadAhead
