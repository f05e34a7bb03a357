import ReadAhead.Proofs.Session.Answer

/-! Reading on from one position. As long as the ring is open, the feed in the slot fills the window that the position
    lies in, and every other feed stopped by itself below the declared size (`Reserved`). A read of that position
    takes the feed out of the slot only if that one stopped too early as well; whatever else its turn comes to,
    the position behind the bytes that it got is reserved in turn (`Reserved.readTurn`). -/

namespace ReadAhead

/-- The bytes that a task delivered. -/
def Task.bytes (t : Task) : List UInt8 :=
  match t.result? with
  | some (.ok d) => d.bytes.data.toList
  | _ => []

@[simp] theorem Task.bytes_wake (t : Task) : t.wake.bytes = t.bytes := by
  unfold bytes
  rw [result?_wake]

theorem Task.bytes_of_ok {t : Task} {d : Delivery} (h : t.result? = some (.ok d)) : t.bytes = d.bytes.data.toList := by
  unfold bytes
  rw [h]

theorem Task.length_bytes_of_ok {t : Task} {d : Delivery} (h : t.result? = some (.ok d)) :
    t.bytes.length = d.bytes.size := by
  rw [bytes_of_ok h, Array.length_toList, ByteArray.size_data]

theorem Task.exists_of_bytes {t : Task} (h : t.bytes ≠ []) : ∃ d, t.result? = some (.ok d) := by
  unfold bytes at h
  split at h
  · exact ⟨_, ‹_›⟩
  · exact absurd rfl h

theorem Task.bytes_of_not_over {t : Task} (h : t.isOver = false) : t.bytes = [] := by
  unfold bytes
  rw [result?_of_not_over h]

/-- The feed stopped below `size`, where the terms allow it. -/
structure Feed.Short {σ : Type} (terms : Origin.Terms) (size : Nat) (f : Feed σ) : Prop where
  stopped : f.isStopped = true
  below : f.start + f.copied < size
  ended : Feed.Ended terms (f.start + f.copied) f.failure

theorem Feed.Short.wake {σ : Type} {terms : Origin.Terms} {size : Nat} {f : Feed σ} (h : f.Short terms size) :
    f.wake.Short terms size := by
  rw [wake_of_isStopped h.stopped]
  exact h

/-- A source that goes on to `size` lets no feed stop short of it. -/
theorem Feed.not_short_reaching {σ : Type} {size : Nat} {f : Feed σ} : ¬ f.Short (.reaching size) size := by
  intro h
  have hbelow := h.below
  rcases h.ended with ⟨hends, -⟩ | ⟨cause, hfails, -⟩
  · exact absurd hbelow (Nat.not_lt.mpr hends)
  · exact absurd hbelow (Nat.not_lt.mpr hfails)

namespace Session
variable {σ : Type} {origin : Origin σ} {terms : Origin.Terms} {may : Session σ → Act → Prop} {s t : Session σ}
  {i last position : Nat} {r : Reading} {new : Task}

structure Reserved (origin : Origin σ) (terms : Origin.Terms) (s : Session σ) (position : Nat) : Prop where
  window : s.slot.isSome = true → s.ring.start ≤ position ∧ position < s.reach
  current : ∀ k, s.slot = some k → ∃ f, s.feeds[k]? = some f ∧ f.cancelled = false ∧ f.Fills origin terms s.ring
  others : ∀ k f, s.feeds[k]? = some f → s.slot = some k ∨ f.Short terms s.stream.size

theorem Reserved.of_eq (h : Reserved origin terms s position) (hstream : t.stream = s.stream) (hring : t.ring = s.ring)
    (hfeeds : t.feeds = s.feeds) (hslot : t.slot = s.slot) : Reserved origin terms t position := by
  constructor
  · rw [hslot, reach, hring]
    exact h.window
  · rw [hring, hfeeds, hslot]
    exact h.current
  · rw [hstream, hfeeds, hslot]
    exact h.others

theorem Reserved.note (h : Reserved origin terms s position) (mark : Mark) : Reserved origin terms (s.note mark) position :=
  h.of_eq (stream_note ..) (ring_note ..) (feeds_note ..) (slot_note ..)

/-- With the slot empty, nothing but the feeds that stopped short is left. -/
theorem reserved_of_short (hslot : s.slot = none) (h : ∀ f ∈ s.feeds, f.Short terms s.stream.size) :
    Reserved origin terms s position := by
  constructor
  · intro hsome
    rw [hslot] at hsome
    cases hsome
  · intro k hk
    cases hslot.symm.trans hk
  · intro k f hk
    exact Or.inr (h f (List.mem_of_getElem? hk))

theorem Reserved.short (h : Reserved origin terms s position) (hslot : s.slot = none) :
    ∀ f ∈ s.feeds, f.Short terms s.stream.size := by
  intro f hf
  obtain ⟨k, hk⟩ := List.mem_iff_getElem?.mp hf
  rcases h.others k f hk with hsome | hshort
  · cases hslot.symm.trans hsome
  · exact hshort

/-- The feed that cannot serve a read of the reserved position has stopped short of it, and was not told to. -/
theorem Reserved.stopped_of_isStale {k : Nat} (h : Reserved origin terms s r.position) (hslot : s.slot = some k)
    (hstale : s.isStale r = true) :
    ∃ f, s.feeds[k]? = some f ∧ f.cancelled = false ∧ f.Short terms s.stream.size := by
  obtain ⟨f, hk, hgo, hfills⟩ := h.current k hslot
  have hsome : s.slot.isSome = true := by
    rw [hslot]
    rfl
  obtain ⟨hlow, hhigh⟩ := h.window hsome
  -- the position is within the window, so the feed stopped before what the ring could hold of the read
  obtain ⟨stop, hstop, hlt⟩ : ∃ stop, s.ring.stop = some stop ∧ stop < min (s.wantedEnd r) s.reach := by
    unfold isStale at hstale
    rw [Option.isNone_eq_false_iff.mpr hsome, decide_eq_false (Nat.not_lt.mpr hlow),
      decide_eq_false (Nat.not_le.mpr hhigh)] at hstale
    cases hstop : s.ring.stop with
    | none =>
      rw [hstop] at hstale
      cases hstale
    | some stop =>
      rw [hstop] at hstale
      exact ⟨stop, rfl, of_decide_eq_true hstale⟩
  have hmark := hfills.stop
  rw [hstop] at hmark
  cases hstopped : f.isStopped with
  | false =>
    rw [hstopped] at hmark
    cases hmark
  | true =>
    rw [hstopped] at hmark
    obtain rfl := Option.some.inj hmark
    have hended := hfills.ended hstopped
    rw [hfills.written] at hended hlt
    have hsize : s.wantedEnd r ≤ s.stream.size := Nat.min_le_right _ _
    exact ⟨f, hk, hgo, hstopped, by omega, hended⟩

theorem Reserved.short_of_isStale (h : Reserved origin terms s r.position) (hstale : s.isStale r = true) :
    ∀ f ∈ s.feeds, f.Short terms s.stream.size := by
  intro f hf
  obtain ⟨j, hj⟩ := List.mem_iff_getElem?.mp hf
  rcases h.others j f hj with hsome | hshort
  · obtain ⟨f', hj', -, hshort⟩ := h.stopped_of_isStale hsome hstale
    obtain rfl := Option.some.inj (hj.symm.trans hj')
    exact hshort
  · exact hshort

/-! ### Turns of a read -/

/-- The bytes that are taken move the position on, and the window with it. -/
theorem Reserved.taken {n : Nat} {bytes : ByteArray} {left : Ring} (h : Reserved origin terms s position)
    (ht : s.ring.Taken n position bytes left) (hlow : s.ring.start ≤ position) :
    Reserved origin terms (s.setRing left true) (position + bytes.size) := by
  constructor
  · intro hslot
    rw [slot_setRing] at hslot
    obtain ⟨-, hhigh⟩ := h.window hslot
    have hstart := ht.start
    unfold reach at hhigh ⊢
    rw [ring_setRing, ht.capacity]
    omega
  · intro k hk
    rw [slot_setRing] at hk
    obtain ⟨f, hf, hgo, hfills⟩ := h.current k hk
    rw [feeds_setRing, List.getElem?_map, hf, ring_setRing]
    exact ⟨f.wake, rfl, (Feed.same_wake f).cancelled.trans hgo, (hfills.taken ht hlow).wake⟩
  · intro k g hg
    rw [feeds_setRing, List.getElem?_map] at hg
    obtain ⟨f, hf, rfl⟩ := Option.map_eq_some_iff.mp hg
    rw [slot_setRing, stream_setRing]
    exact (h.others k f hf).imp_right Feed.Short.wake

theorem Reserved.looked (h : Reserved origin terms s r.position) (hring : s.ring.Sound) (hl : Looked s i r last t)
    (hnew : t.tasks[i]? = some new) : Reserved origin terms t (r.position + new.bytes.length) := by
  cases hl with
  | closed =>
    rw [eq_of_getElem?_set hnew]
    exact h.of_eq rfl rfl rfl rfl
  | shut =>
    rw [eq_of_getElem?_set hnew]
    exact h.of_eq rfl rfl rfl rfl
  | @served _ hres _ bytes left ht =>
    obtain ⟨-, hlow, -⟩ := (Ring.isResident_iff hring).mp hres
    rw [eq_of_getElem?_set hnew, Task.length_bytes_of_ok rfl]
    exact ((h.taken ht hlow).note .ready).of_eq rfl rfl rfl rfl
  | short =>
    rw [eq_of_getElem?_set hnew]
    exact h.of_eq rfl rfl rfl rfl
  | late =>
    rw [eq_of_getElem?_set hnew]
    exact (h.note .filling).of_eq rfl rfl rfl rfl
  | waits =>
    rw [eq_of_getElem?_set hnew]
    exact (h.note .filling).of_eq rfl rfl rfl rfl

theorem reserved_joined {source : σ} (hsupplied : Supplied origin terms s)
    (hmargin : s.stream.tier.margin < s.stream.tier.capacity) (hoffers : Offers origin (fun _ => terms) s.stream)
    (hposition : r.position < s.stream.size) (hshort : ∀ f ∈ s.feeds, f.Short terms s.stream.size)
    (hconn : origin.connect s.stream.url s.attempts (s.restartAt r) = .ok source) :
    Reserved origin terms (s.joined source (s.restartAt r)) r.position := by
  have hbegin : s.restartAt r ≤ r.position := Nat.sub_le _ _
  constructor
  · intro _
    rw [reach, ring_joined, Ring.start_emptied, Ring.capacity_emptied, hsupplied.capacity]
    unfold restartAt at hbegin ⊢
    omega
  · intro k hk
    rw [slot_joined] at hk
    obtain rfl := Option.some.inj hk
    have hlast : (s.joined source (s.restartAt r)).feeds[s.feeds.length]? =
        some (Feed.fresh source (s.restartAt r) s.stream.scratch) := by
      rw [feeds_joined, List.getElem?_append_right (Nat.le_of_eq (List.length_map _)), List.length_map, Nat.sub_self]
      rfl
    rw [ring_joined]
    exact ⟨_, hlast, rfl, hoffers.fills hsupplied.capacity (Nat.lt_of_le_of_lt hbegin hposition) hconn⟩
  · intro k g hg
    rw [slot_joined, stream_joined]
    rw [feeds_joined, List.getElem?_append, List.length_map] at hg
    split at hg
    · rw [List.getElem?_map] at hg
      obtain ⟨f, hf, rfl⟩ := Option.map_eq_some_iff.mp hg
      exact Or.inr (hshort f (List.mem_of_getElem? hf)).wake
    · obtain ⟨hlt, -⟩ := List.getElem?_eq_some_iff.mp hg
      rw [List.length_singleton] at hlt
      obtain rfl : s.feeds.length = k := by omega
      exact Or.inl rfl

/-- Whatever the turn of a read of the reserved position comes to, the position behind its bytes is reserved then. -/
theorem Reserved.readTurn (h : Reserved origin terms s r.position) (horderly : s.Orderly)
    (hsupplied : Supplied origin terms s) (hmargin : s.stream.tier.margin < s.stream.tier.capacity)
    (hoffers : Offers origin (fun _ => terms) s.stream) (hi : s.tasks[i]? = some (.read r))
    (hgo : (Task.read r).isOver = false) (ht : ReadTurn origin s i r t) (hnew : t.tasks[i]? = some new) :
    Reserved origin terms t (r.position + new.bytes.length) := by
  cases ht with
  | closed =>
    rw [eq_of_getElem?_set hnew]
    exact h.of_eq rfl rfl rfl rfl
  | dismiss _ _ hstale =>
    rw [eq_of_getElem?_set hnew]
    -- a feed taken out of the slot here had stopped by itself before it was told to
    have hshort := h.short_of_isStale hstale
    refine reserved_of_short rfl fun g hg => ?_
    obtain ⟨k, hk⟩ := List.mem_iff_getElem?.mp hg
    obtain ⟨f, hf, rfl⟩ := getElem?_dismiss s hk
    have hf := hshort f (List.mem_of_getElem? hf)
    split
    · exact ⟨hf.stopped, hf.below, hf.ended⟩
    · exact hf
  | restart hold hr =>
    have hslot := horderly.slot_of_restart hi hold
    have hshort := h.short hslot
    cases hr with
    | shut =>
      rw [eq_of_getElem?_set hnew]
      exact h.of_eq rfl rfl rfl rfl
    | refused =>
      rw [eq_of_getElem?_set hnew]
      refine reserved_of_short ?_ fun g hg => ?_
      · rw [finish_eq, slot_endTask, slot_note, slot_rebound, hslot]
      · rw [finish_eq, feeds_endTask, feeds_note, feeds_rebound] at hg
        obtain ⟨f, hf, rfl⟩ := List.mem_map.mp hg
        rw [finish_eq, stream_endTask, stream_note, stream_rebound]
        exact (hshort f hf).wake
    | connected _ hconn hlook =>
      obtain ⟨-, hposition⟩ := horderly.asked r (List.mem_of_getElem? hi) hgo
      refine (reserved_joined hsupplied hmargin hoffers hposition hshort hconn).looked ?_ hlook hnew
      rw [ring_joined]
      exact Ring.sound_emptied horderly.ring _
  | look _ hl => exact h.looked horderly.ring hl hnew
  | late =>
    rw [eq_of_getElem?_set hnew]
    exact h.of_eq rfl rfl rfl rfl

/-! ### Steps of a feed -/

/-- Only the feed in the slot can take a step, and it goes on to fill the ring. -/
theorem Reserved.feedStep {k : Nat} (h : Reserved origin terms s position) (hring : s.ring.Sound)
    (hopen : s.ring.isClosed = false) (hready : s.feedReady k = true) :
    Reserved origin terms (s.feedStep origin k) position := by
  obtain ⟨f, hk, hr⟩ := exists_of_feedReady hready
  have hslot : s.slot = some k := by
    rcases h.others k f hk with hslot | hshort
    · exact hslot
    · cases hshort.stopped.symm.trans (Feed.isStopped_of_isReady hr)
  obtain ⟨f', hk', hgo, hfills⟩ := h.current k hslot
  obtain rfl := Option.some.inj (hk.symm.trans hk')
  have ht : Reringed s (s.feedStep origin k) _ := reringed_feedStep hring hk hr
  have hworked := Feed.worked_advance hring origin hr
  constructor
  · rw [ht.slot, reach, ring_feedStep hk, hworked.start, hworked.capacity]
    exact h.window
  · intro j hj
    rw [ht.slot, hslot] at hj
    obtain rfl := Option.some.inj hj
    rw [ring_feedStep hk]
    exact ⟨_, getElem?_feedStep hk origin, (Feed.same_advance hring origin hr).cancelled.trans hgo,
      Feed.fills_advance hring hopen hfills hgo hr⟩
  · intro j g hg
    rw [ht.slot, ht.stream]
    by_cases hkj : k = j
    · exact Or.inl (hkj ▸ hslot)
    · rw [feedStep_eq hk, feeds_setFeed, List.getElem?_set_ne hkj, feeds_setRing, List.getElem?_map] at hg
      obtain ⟨f', hf', rfl⟩ := Option.map_eq_some_iff.mp hg
      refine (h.others j f' hf').imp_right fun hshort => ?_
      split
      · exact hshort.wake
      · exact hshort

end Session
end ReadAhead
