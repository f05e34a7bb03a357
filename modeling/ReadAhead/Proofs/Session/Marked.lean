import ReadAhead.Proofs.Session.Answer
import ReadAhead.Proofs.Session.Feeds

/-! What a read that waits can rely on, whoever owns the stream. It is told of every change of the ring, so as long as it
    was told of none its bytes are pending (`Alert`). And once the feed in the slot has stopped, the ring is marked
    finished where its bytes end (`Marked`): another feed, which was told to stop, may mark the ring again, but puts
    nothing there any more. -/

namespace ReadAhead
namespace Session
variable {σ : Type} {origin : Origin σ} {may : Session σ → Act → Prop} {s s₀ t : Session σ} {i last : Nat} {r : Reading}
  {new : Task}

/-! ### Reads are told of changes -/

/-- A read that waits and was not told of a change still has to wait. -/
def Alert (s : Session σ) : Prop :=
  ∀ r last, .read r ∈ s.tasks → r.phase = .waiting last false → s.ring.availability last = .ok .pending

theorem alert_of_told (ht : t.tasks = s.tasks.map Task.wake) : t.Alert := by
  intro r last hr hp
  rw [ht] at hr
  obtain ⟨x, -, hx⟩ := List.mem_map.mp hr
  obtain ⟨_, -, -, -, hwoken⟩ := Task.eq_read_of_wake hx
  obtain ⟨hno, -⟩ := hwoken last false hp
  cases hno

theorem Alert.of_eq (h : s.Alert) (htasks : t.tasks = s.tasks) (hring : t.ring = s.ring) : t.Alert := by
  intro r last hr hp
  rw [htasks] at hr
  rw [hring]
  exact h r last hr hp

theorem Alert.note (h : s.Alert) (mark : Mark) : (s.note mark).Alert := h.of_eq (tasks_note ..) (ring_note ..)

/-- One task moves on, and waits only for what is pending. -/
theorem Alert.set (h : s.Alert) (hring : t.ring = s.ring) (ht : t.tasks = s.tasks.set i new)
    (hnew : ∀ r last, new = .read r → r.phase = .waiting last false → s.ring.availability last = .ok .pending) :
    t.Alert := by
  intro r last hr hp
  rw [ht] at hr
  rw [hring]
  rcases mem_set_cases hr with he | hold
  · exact hnew r last he.symm hp
  · exact h r last hold hp

theorem not_unwoken_of_not_waiting (h : new.isWaiting = false) (r : Reading) (last : Nat) (he : new = .read r) :
    r.phase ≠ .waiting last false := by
  intro hp
  rw [he, Task.isWaiting, hp] at h
  cases h

theorem Alert.endTask (h : s.Alert) (hover : new.isOver = true) : (s.endTask i new).Alert :=
  h.set rfl rfl fun r last he hp => absurd hp (not_unwoken_of_not_waiting (Task.isWaiting_of_isOver hover) r last he)

theorem Alert.push (h : s.Alert) (hring : t.ring = s.ring) (ht : t.tasks = s.tasks ++ [new])
    (hnew : new.isWaiting = false) : t.Alert := by
  intro r last hr hp
  rw [ht] at hr
  rw [hring]
  rcases List.mem_append.mp hr with hold | hadded
  · exact h r last hold hp
  · exact absurd hp (not_unwoken_of_not_waiting hnew r last (List.mem_singleton.mp hadded).symm)

theorem Alert.rering {woke : Bool} (h : s.Alert) (ht : Reringed s t woke) : t.Alert := by
  cases woke with
  | false => exact h.of_eq (by simpa using ht.tasks) (ht.unchanged rfl)
  | true => exact alert_of_told (s := s) (by simpa using ht.tasks)

theorem Alert.looked (h : s.Alert) (hl : Looked s i r last t) : t.Alert := by
  cases hl with
  | closed => exact h.endTask rfl
  | shut => exact h.endTask rfl
  | served =>
    refine Alert.endTask ?_ rfl
    exact (alert_of_told (s := s) (by rw [tasks_setRing]; rfl)).note .ready
  | short => exact h.endTask rfl
  | late => exact (h.note .filling).endTask rfl
  | waits _ hpending =>
    refine (h.note .filling).set rfl rfl fun r' last' he hp => ?_
    obtain rfl := Task.read.inj he
    obtain ⟨rfl, -⟩ := Reading.Phase.waiting.inj hp
    rw [ring_note]
    exact hpending

theorem Alert.readTurn (h : s.Alert) (ht : ReadTurn origin s i r t) : t.Alert := by
  cases ht with
  | closed => exact h.endTask rfl
  | dismiss =>
    refine h.set rfl rfl fun r' last he hp => ?_
    obtain rfl := Task.read.inj he
    cases hp
  | restart _ hr =>
    cases hr with
    | shut => exact h.endTask rfl
    | refused =>
      refine Alert.endTask ?_ rfl
      exact (alert_of_told (s := s) (tasks_rebound ..)).note .idle
    | connected _ _ hlook => exact (alert_of_told (s := s) (tasks_joined ..)).looked hlook
  | look _ hl => exact h.looked hl
  | late => exact h.endTask rfl

theorem Alert.closeStep (h : s.Alert) (i : Nat) (c : Closing) : (s.closeStep i c).Alert := by
  unfold Session.closeStep
  split
  · split
    · exact h.set rfl rfl fun r last he => nomatch he
    · exact h.endTask rfl
  · split
    · exact h.endTask rfl
    · exact h
  · exact h

theorem Alert.act (h : s.Alert) (hring : s.ring.Sound) (a : Act) : (s.act a).Alert := by
  cases a with
  | start len position timeout =>
    simp only [Session.act, Session.start]
    repeat' split
    all_goals exact h.push rfl rfl rfl
  | abandon i =>
    simp only [Session.act, Session.abandon]
    repeat' split
    · exact h
    · exact h.endTask rfl
    · exact h
  | close =>
    simp only [Session.act, Session.startClose]
    split
    · exact h.push rfl rfl rfl
    · have hexpired : s.expire.Alert := h.rering (reringed_expire hring)
      exact hexpired.push rfl rfl rfl
  | letGo => exact h

theorem Alert.weave (h : s.Alert) (horderly : s.Orderly) (hstep : Weave origin may s t) : t.Alert := by
  cases horderly.stepCase hstep with
  | feed hk hr => exact h.rering (reringed_feedStep horderly.ring hk hr)
  | read _ _ hturn => exact h.readTurn hturn
  | close => exact h.closeStep _ _
  | expire => exact h.rering (reringed_expire horderly.ring)
  | wait => exact h
  | @act a _ => exact h.act horderly.ring a

/-! ### The mark of a feed that has stopped -/

/-- An open ring is marked finished nowhere beyond its bytes, and where they end once the feed in the slot has
    stopped. -/
structure Marked (s : Session σ) : Prop where
  within : s.ring.EndsWithin
  ended : ∀ k f, s.slot = some k → s.feeds[k]? = some f → f.isStopped = true → s.ring.isClosed = false →
    s.ring.stop = some s.ring.writePosition

theorem marked_of_vacant (hwithin : s.ring.EndsWithin) (hslot : s.slot = none) : s.Marked := by
  refine ⟨hwithin, fun k f hk => ?_⟩
  rw [hslot] at hk
  cases hk

theorem Marked.expire (h : s.Marked) : s.expire.Marked := by
  refine ⟨?_, fun k f _ _ _ hopen => ?_⟩
  · rw [Session.expire, ring_cancelAll, ring_setRing]
    exact h.within.close
  · cases (isClosed_expire s).symm.trans hopen

/-- The mark stays, the bytes end where they did, and no feed stops. -/
theorem Marked.tells (h : s.Marked) (ht : Tells s t) (hslot : t.slot = s.slot)
    (hclosed : t.ring.isClosed = s.ring.isClosed) (hstop : t.ring.stop = s.ring.stop)
    (hend : t.ring.writePosition = s.ring.writePosition) : t.Marked := by
  refine ⟨fun stop hmark => ?_, fun k g hk hg hstopped hopen => ?_⟩
  · rw [hstop] at hmark
    rw [hend]
    exact h.within stop hmark
  · rcases ht k g hg with ⟨f, hf, htold⟩ | ⟨source, start, scratch, htold⟩
    · rw [hstop, hend]
      exact h.ended k f (hslot ▸ hk) hf (htold.isStopped.symm.trans hstopped) (hclosed ▸ hopen)
    · cases hstopped.symm.trans htold.isStopped

theorem Marked.of_eq (h : s.Marked) (hfeeds : t.feeds = s.feeds) (hslot : t.slot = s.slot) (hring : t.ring = s.ring) :
    t.Marked :=
  h.tells (tells_of_eq hfeeds) hslot (by rw [hring]) (by rw [hring]) (by rw [hring])

theorem Marked.looked (h : s.Marked) (hl : Looked s i r last t) : t.Marked := by
  rcases hl.steady_or_takes with ht | ⟨bytes, left, -, htaken, ht⟩
  · exact h.of_eq ht.feeds ht.slot ht.ring
  · refine h.tells hl.tells hl.slot ?_ ?_ ?_
    · rw [ht.ring, ring_setRing, htaken.isClosed_eq]
    · rw [ht.ring, ring_setRing, htaken.stop]
    · rw [ht.ring, ring_setRing, htaken.writePosition]

theorem marked_joined (s : Session σ) (source : σ) (start : Nat) : (s.joined source start).Marked := by
  refine ⟨?_, fun k g hk hg hstopped => ?_⟩
  · rw [ring_joined]
    exact Ring.endsWithin_emptied s.ring start
  · rw [slot_joined] at hk
    obtain rfl := Option.some.inj hk
    rw [feeds_joined, List.getElem?_append_right (by simp), List.length_map, Nat.sub_self] at hg
    obtain rfl := Option.some.inj hg
    cases hstopped

theorem Marked.readTurn (h : s.Marked) (horderly : s.Orderly) (hi : s.tasks[i]? = some (.read r))
    (ht : ReadTurn origin s i r t) : t.Marked := by
  cases ht with
  | closed => exact h.of_eq rfl rfl rfl
  | dismiss => exact marked_of_vacant h.within rfl
  | restart hold hr =>
    have hslot := horderly.slot_of_restart hi hold
    cases hr with
    | shut => exact h.of_eq rfl rfl rfl
    | refused =>
      refine marked_of_vacant ?_ ?_
      · rw [finish_eq, ring_endTask, ring_note, ring_rebound]
        exact Ring.endsWithin_emptied s.ring _
      · rw [finish_eq, slot_endTask, slot_note, slot_rebound, hslot]
    | connected _ _ hlook => exact (marked_joined _ _ _).looked hlook
  | look _ hl => exact h.looked hl
  | late => exact h.of_eq rfl rfl rfl

theorem Marked.closeStep (h : s.Marked) (i : Nat) (c : Closing) : (s.closeStep i c).Marked := by
  unfold Session.closeStep
  split
  · split
    · exact marked_of_vacant h.within rfl
    · exact h.of_eq rfl rfl rfl
  · split
    · exact h.of_eq rfl rfl rfl
    · exact h
  · exact h

/-- A feed that stops marks the ring, and only the one in the slot can go on. -/
theorem Marked.feedStep {j : Nat} {f : Feed σ} (h : s.Marked) (horderly : s.Orderly) (hj : s.feeds[j]? = some f)
    (hr : f.isReady s.now = true) : (s.feedStep origin j).Marked := by
  have ht : Reringed s (s.feedStep origin j) _ := reringed_feedStep horderly.ring hj hr
  refine ⟨?_, fun k g hk hg hstopped hopen => ?_⟩
  · rw [ring_feedStep hj]
    exact (Feed.worked_advance horderly.ring origin hr).ends h.within
  rw [ht.slot] at hk
  rcases Feed.stops_advance horderly.ring origin hr with hgoes | ⟨reason, -, hhalted⟩
  · exfalso
    rcases horderly.stray j f hj with hslot | hc
    · obtain rfl := Option.some.inj (hk.symm.trans hslot)
      obtain rfl := Option.some.inj ((getElem?_feedStep hj origin).symm.trans hg)
      cases hstopped.symm.trans hgoes.running
    · have hhalt := hgoes.running
      rw [Feed.advance_of_cancelled hc hr] at hhalt
      cases hhalt
  · rw [ring_feedStep hj, hhalted.ring] at hopen ⊢
    rw [Ring.isClosed_finish] at hopen
    rw [Ring.finish_of_open hopen]
    rfl

theorem Marked.act (h : s.Marked) (a : Act) : (s.act a).Marked := by
  rcases steady_or_closes a s with hs | ⟨-, tasks, turns, he⟩
  · exact h.of_eq hs.feeds hs.slot hs.ring
  · rw [he]
    exact h.expire.of_eq rfl rfl rfl

theorem Marked.weave (h : s.Marked) (horderly : s.Orderly) (hstep : Weave origin may s t) : t.Marked := by
  cases horderly.stepCase hstep with
  | feed hk hr => exact h.feedStep horderly hk hr
  | read _ hi hturn => exact h.readTurn horderly hi hturn
  | close => exact h.closeStep _ _
  | expire => exact h.expire
  | wait => exact h.of_eq rfl rfl rfl
  | @act a _ => exact h.act a

/-! ### Runs -/

/-- What a read that waits relies on. -/
structure Reliable (origin : Origin σ) (s : Session σ) : Prop extends Orderly s where
  alert : s.Alert
  marked : s.Marked
  unfailed : s.Unfailed
  supplied : Supplied origin .any s

theorem IsNew.reliable (h : IsNew s) (origin : Origin σ) : Reliable origin s := by
  have hwithin : s.ring.EndsWithin := by
    obtain ⟨node, url, size, tier, readTimeout, maxReadTimeout, scratch, storage, now, -, rfl⟩ := h
    exact fun stop hstop => nomatch hstop
  refine ⟨h.orderly, fun r last hr => ?_, marked_of_vacant hwithin h.slot_eq_none, fun k f hk => ?_,
    h.supplied origin .any⟩
  · rw [h.tasks_eq_nil] at hr
    cases hr
  · rw [h.feeds_eq_nil] at hk
    cases hk

theorem Reliable.weave (h : Reliable origin s) (hstep : Weave origin may s t) : Reliable origin t :=
  ⟨h.toOrderly.weave hstep, h.alert.weave h.toOrderly hstep, h.marked.weave h.toOrderly hstep,
    h.unfailed.weave h.toOrderly hstep, h.supplied.weave h.toOrderly (offers_any origin _) hstep⟩

theorem Reliable.weaves (h : Reliable origin s) (hweaves : Weaves origin may s t) : Reliable origin t := by
  induction hweaves with
  | refl => exact h
  | tail _ hstep ih => exact ih.weave hstep

end Session
end ReadAhead
