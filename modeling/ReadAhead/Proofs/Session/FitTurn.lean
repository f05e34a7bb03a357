import ReadAhead.Proofs.Session.Fit

/-! What a turn of a read keeps of a session whose parts fit each other: a feed that goes and one that comes
    (`Fit.dismiss`, `Fit.install`), a read that looks for its bytes (`AtWork`), and one that replaces the
    feed (`Replaces`). The other tasks are queued or over, so only the task whose turn it is matters. -/

namespace ReadAhead
namespace Session
variable {σ : Type} {origin : Origin σ} {terms : Nat → Origin.Terms} {s t : Session σ} {i : Nat}

/-! ### Who else has begun -/

theorem Lined.not_waiting {tasks : List Task} {turns : List Nat} {task : Task} (h : Lined tasks turns)
    (hhead : turns.head? = some i) (hi : tasks[i]? = some task) (hw : task.isWaiting = false) :
    ∀ x ∈ tasks, x.isWaiting = false :=
  h.all hhead (fun _ => Task.isWaiting_of_isOver) (fun _ => Task.isWaiting_of_isQueued) hi hw

/-- With no feed in the slot, and nobody left to wait for one, every feed has stopped. -/
theorem Fit.all_stopped {task : Task} (h : Fit origin terms s) (hslot : s.slot = none)
    (hhead : s.turns.head? = some i) (hi : s.tasks[i]? = some task) (hfreed : s.Freed task) :
    ∀ f ∈ s.feeds, f.isStopped = true := by
  intro f hf
  have hall : ∀ x ∈ s.tasks, s.Freed x := h.lined.all hhead (fun _ ho => freed_of_none (Task.old?_of_isOver ho))
    (fun _ hq => freed_of_none (Task.old?_of_isQueued hq)) hi hfreed
  obtain ⟨k, hk⟩ := List.mem_iff_getElem?.mp hf
  cases hrun : f.isStopped with
  | true => rfl
  | false =>
    rcases h.live k f hk hrun with hs | ⟨-, -, x, hx, hxk⟩
    · rw [hslot] at hs
      cases hs
    · have hstop := hall x hx k hxk
      simp only [hasStopped, hk] at hstop
      rw [hrun] at hstop
      cases hstop

/-! ### Feeds that go and come -/

theorem getElem?_dismiss (s : Session σ) {old k : Nat} {g : Feed σ} (hg : (s.dismiss old).feeds[k]? = some g) :
    ∃ f, s.feeds[k]? = some f ∧ g = if old = k then f.cancel else f := by
  rw [feeds_dismiss, List.getElem?_modify] at hg
  obtain ⟨f, hf, rfl⟩ := Option.map_eq_some_iff.mp hg
  exact ⟨f, hf, by split <;> rfl⟩

/-- A task whose turn it is asks the feed in the slot to stop, and waits until it has. -/
theorem Fit.dismiss {old : Nat} {task new : Task} (h : Fit origin terms s) (hslot : s.slot = some old)
    (hi : s.tasks[i]? = some task) (hhead : s.turns.head? = some i) (hq : task.isQueued = true)
    (hold : new.old? = some old) (hgo : new.isOver = false) (hw : new.isWaiting = false)
    (hasked : ∀ r, new = .read r → 0 < r.len ∧ r.position < s.stream.size) :
    Fit origin terms ((s.dismiss old).setTask i new) := by
  have hwaits := h.lined.not_waiting hhead hi (Task.isWaiting_of_isQueued hq)
  have hlt : i < s.tasks.length := (List.getElem?_eq_some_iff.mp hi).1
  obtain ⟨f₀, hf₀, -⟩ := h.serving old hslot
  have hsame : ∀ (k : Nat) (f : Feed σ), s.feeds[k]? = some f → f.cancelled = true →
      ∃ g, (s.dismiss old).feeds[k]? = some g ∧ g.cancelled = true := by
    intro k f hf hc
    refine ⟨if old = k then f.cancel else f, ?_, by split <;> first | rfl | exact hc⟩
    rw [feeds_dismiss, List.getElem?_modify, hf]
    rfl
  refine ⟨h.capacity, h.margin, h.ring, h.shut, fun hshut g hg => ?_, fun _ hk => (nomatch hk),
    fun k g hg hrun => ?_,
    fun g hg hs => ?_, h.lined.set hhead hgo, fun r hr hr' => ?_, fun x hx k hk => ?_, fun r last woken hr hp => ?_⟩
  · obtain ⟨k, hk⟩ := List.mem_iff_getElem?.mp hg
    obtain ⟨f, hf, rfl⟩ := getElem?_dismiss s hk
    have hc := h.stopping hshut f (List.mem_of_getElem? hf)
    split <;> first | rfl | exact hc
  · obtain ⟨f, hf, rfl⟩ := getElem?_dismiss s hg
    have hrun' : f.isStopped = false := by
      split at hrun
      · exact hrun
      · exact hrun
    rcases h.live k f hf hrun' with hs | ⟨hs, -⟩
    · obtain rfl : old = k := Option.some.inj (hslot.symm.trans hs)
      refine Or.inr ⟨rfl, by rw [if_pos rfl]; rfl, new, ?_, hold⟩
      exact List.mem_of_getElem? (List.getElem?_set_self hlt)
    · rw [hslot] at hs
      cases hs
  · obtain ⟨k, hk⟩ := List.mem_iff_getElem?.mp hg
    obtain ⟨f, hf, rfl⟩ := getElem?_dismiss s hk
    refine h.asleep f (List.mem_of_getElem? hf) ?_
    split at hs
    · exact hs
    · exact hs
  · rcases mem_set_cases hr with hnew | hr
    · exact hasked r hnew.symm
    · exact h.asked r hr hr'
  · rcases mem_set_cases hx with rfl | hx
    · obtain rfl : old = k := Option.some.inj (hold.symm.trans hk)
      refine ⟨f₀.cancel, ?_, rfl⟩
      show (s.feeds.modify old Feed.cancel)[old]? = some f₀.cancel
      rw [List.getElem?_modify, hf₀]
      simp
    · obtain ⟨f, hf, hc⟩ := h.leaving x hx k hk
      exact hsame k f hf hc
  · rcases mem_set_cases hr with hnew | hr
    · rw [← hnew] at hw
      simp [Task.isWaiting, hp] at hw
    · have hn := hwaits _ hr
      simp [Task.isWaiting, hp] at hn

theorem Fit.countAttempt (h : Fit origin terms s) (hslot : s.slot = none) : Fit origin terms s.countAttempt := by
  refine ⟨h.capacity, h.margin, h.ring, h.shut, h.stopping, fun k hk => ?_, h.live, h.asleep, h.lined, h.asked,
    h.leaving, fun r last woken hr hp => ?_⟩
  · rw [slot_countAttempt, hslot] at hk
    cases hk
  · have hw := h.waiting r last woken hr hp
    exact ⟨hw.served, hw.low, hw.high, hw.target, hw.pending⟩

theorem getElem?_install {source : σ} {start k : Nat} {g : Feed σ} (hg : (s.install source start).feeds[k]? = some g) :
    s.feeds[k]? = some g ∨ (k = s.feeds.length ∧ g = Feed.fresh source start s.stream.scratch) := by
  rw [feeds_install, List.getElem?_append] at hg
  split at hg
  · exact Or.inl hg
  · obtain ⟨hlt, hget⟩ := List.getElem?_eq_some_iff.mp hg
    rw [List.length_singleton] at hlt
    exact Or.inr ⟨by omega, by simpa using hget.symm⟩

/-- A new feed serves the stream, every other having stopped. -/
theorem Fit.install {source : σ} {start : Nat} (h : Fit origin terms s) (hslot : s.slot = none)
    (hstopped : ∀ f ∈ s.feeds, f.isStopped = true) (hopen : s.ring.isClosed = false) (hattempted : 0 < s.attempts)
    (hconn : origin.connect s.stream.url (s.attempts - 1) start = .ok source)
    (hfresh : (Feed.fresh source start s.stream.scratch).Fills origin (terms (s.attempts - 1)) s.ring) :
    Fit origin terms (s.install source start) := by
  have hkept : ∀ (k : Nat) f, s.feeds[k]? = some f → (s.install source start).feeds[k]? = some f := by
    intro k f hf
    rw [feeds_install, List.getElem?_append_left (List.getElem?_eq_some_iff.mp hf).1, hf]
  refine ⟨h.capacity, h.margin, h.ring, h.shut, fun hshut => ?_, fun k hk => ?_, fun k g hg hrun => ?_,
    fun g hg hs => ?_, h.lined, h.asked, fun x hx k hk => ?_, fun r last woken hr hp => ?_⟩
  · rw [ring_install, hopen] at hshut
    cases hshut
  · obtain rfl : s.feeds.length = k := Option.some.inj hk
    exact ⟨Feed.fresh source start s.stream.scratch, by simp, hattempted, ⟨source, hconn⟩, fun _ => ⟨rfl, hfresh⟩⟩
  · rcases getElem?_install hg with hold | ⟨rfl, -⟩
    · rw [hstopped g (List.mem_of_getElem? hold)] at hrun
      cases hrun
    · exact Or.inl rfl
  · obtain ⟨k, hk⟩ := List.mem_iff_getElem?.mp hg
    rcases getElem?_install hk with hold | ⟨-, rfl⟩
    · exact h.asleep g (List.mem_of_getElem? hold) hs
    · cases hs
  · obtain ⟨f, hf, hc⟩ := h.leaving x hx k hk
    exact ⟨f, hkept k f hf, hc⟩
  · have hw := (h.waiting r last woken hr hp).served
    rw [hslot] at hw
    cases hw

/-! ### Turns of reads -/

theorem endTask_setRing (s : Session σ) {task : Task} (hover : task.isOver = true) (ring : Ring) (woke : Bool) :
    (s.setRing ring woke).endTask i task = (s.endTask i task).setRing ring woke := by
  cases woke with
  | true => simp [endTask, Session.setRing, List.map_set, Task.wake_of_isOver hover]
  | false => rfl

theorem endTask_note (s : Session σ) (task : Task) (mark : Mark) :
    (s.note mark).endTask i task = (s.endTask i task).note mark := by
  unfold Session.note
  rw [closed_endTask]
  split <;> rfl

theorem not_waiting_endTask {task : Task} (h : Lined s.tasks s.turns) (hhead : s.turns.head? = some i)
    (hover : task.isOver = true) : ∀ x ∈ (s.endTask i task).tasks, x.isWaiting = false :=
  h.all_set hhead (fun _ => Task.isWaiting_of_isOver) (fun _ => Task.isWaiting_of_isQueued)
    (Task.isWaiting_of_isOver hover)

/-- Read `i` has the turn, and a feed is there to bring its bytes up to `last`. -/
structure AtWork (origin : Origin σ) (terms : Nat → Origin.Terms) (s : Session σ) (i : Nat) (r : Reading) (last : Nat) :
    Prop where
  fit : Fit origin terms s
  task : s.tasks[i]? = some (.read r)
  head : s.turns.head? = some i
  going : (Task.read r).isOver = false
  freed : s.Freed (.read r)
  slot : s.slot.isSome = true
  low : s.ring.start ≤ r.position
  high : r.position < s.reach
  target : last = s.lastWanted r

theorem AtWork.asked {r : Reading} {last : Nat} (h : AtWork origin terms s i r last) :
    0 < r.len ∧ r.position < s.stream.size :=
  h.fit.asked r (List.mem_of_getElem? h.task) h.going

theorem AtWork.looked {r : Reading} {last : Nat} (hwork : AtWork origin terms s i r last) (hl : Looked s i r last t) :
    Fit origin terms t := by
  obtain ⟨h, hi, hhead, hgo, hfreed, hslot, hlow, hhigh, hlast⟩ := hwork
  have hmem : i ∈ s.turns := List.mem_of_mem_head? hhead
  have hasked := h.asked r (List.mem_of_getElem? hi) hgo
  cases hl with
  | closed hc => exact h.endTask hi hmem hfreed rfl
  | shut hc hshut => exact h.endTask hi hmem hfreed rfl
  | @served hc hres henough bytes left ht =>
    have hdone : Fit origin terms (s.endTask i (.read { r with
        phase := .done (.ok ⟨bytes, decide (s.stream.size ≤ r.position + bytes.size)⟩) })) :=
      h.endTask hi hmem hfreed rfl
    -- The read ends before the ring moves, so nobody waits who could find the read cursor moved.
    rw [finish_eq, endTask_note, endTask_setRing s rfl]
    refine (hdone.setRing ht.sound ht.capacity ht.isClosed_eq (fun k f hk hf hopen => ?_) ?_).note _
    · obtain ⟨f', hf', hs⟩ := h.serving k hk
      obtain rfl := Option.some.inj (hf'.symm.trans hf)
      exact (hs.fills (by rw [← ht.isClosed_eq, hopen])).2.taken ht hlow
    · exact Or.inr (not_waiting_endTask h.lined hhead rfl)
  | short => exact h.endTask hi hmem hfreed rfl
  | late =>
    rw [finish_eq, endTask_note]
    exact (h.endTask hi hmem hfreed rfl).note _
  | waits hc hpending hd =>
    have hnote := alike_note s .filling
    have hw : s.Awaits r last false := ⟨hslot, hlow, hhigh, hlast, fun _ => hpending⟩
    have htask : (s.note .filling).tasks[i]? = some (.read r) := by rw [hnote.tasks, hi]
    have hfreed' : (s.note .filling).Freed (.read r) := by
      intro k hk
      have hstop := hfreed k hk
      simp only [hasStopped, hnote.feeds] at hstop ⊢
      exact hstop
    refine (h.note _).awaiting htask ?_ hfreed' ?_ (hnote.awaits hw)
    · rw [hnote.turns, hhead]
    · rw [hnote.stream]
      exact hasked

/-- The ring emptied and bound where the next feed is to start, while no feed serves the stream. -/
theorem Fit.rebound {r : Reading} (h : Fit origin terms s) (hslot : s.slot = none) :
    Fit origin terms (s.rebound (s.restartAt r)) := by
  have hwaits : ∀ x ∈ s.tasks, x.isWaiting = false := by
    intro x hx
    cases hw : x.isWaiting with
    | false => rfl
    | true =>
      unfold Task.isWaiting at hw
      split at hw
      · rename_i r'
        split at hw
        · rename_i last woken hp
          have hserved := (h.waiting r' last woken hx hp).served
          rw [hslot] at hserved
          cases hserved
        · cases hw
      · cases hw
  refine Fit.countAttempt ?_ (by simpa using hslot)
  refine h.setRing (Ring.sound_emptied h.ring _) rfl rfl (fun k f hk => ?_) (Or.inr hwaits)
  rw [hslot] at hk
  cases hk

theorem slot_of_isStale (h : s.isStale r = false) : s.slot.isSome = true := by
  simp only [isStale, Bool.or_eq_false_iff] at h
  cases hs : s.slot with
  | some k => rfl
  | none => simp [hs] at h

/-- What a read needs to replace the feed: it has the turn, no feed serves the stream, and nobody waits for one
    to stop. -/
structure Replaces (origin : Origin σ) (terms : Nat → Origin.Terms) (s : Session σ) (i : Nat) (r : Reading) : Prop where
  fit : Fit origin terms s
  task : s.tasks[i]? = some (.read r)
  head : s.turns.head? = some i
  going : (Task.read r).isOver = false
  looking : (Task.read r).isWaiting = false
  freed : s.Freed (.read r)
  slot : s.slot = none

section Replaces
variable {r : Reading} (h : Replaces origin terms s i r)

include h in
theorem Replaces.task_rebound (start : Nat) : (s.rebound start).tasks[i]? = some (.read r) := by
  rw [tasks_rebound, List.getElem?_map, h.task]
  exact congrArg some (Task.wake_of_not_waiting h.looking)

include h in
theorem Replaces.stopped_rebound (start : Nat) : ∀ f ∈ (s.rebound start).feeds, f.isStopped = true := by
  intro g hg
  rw [feeds_rebound] at hg
  obtain ⟨f, hf, rfl⟩ := List.mem_map.mp hg
  simpa using h.fit.all_stopped h.slot h.head h.task h.freed f hf

include h in
theorem Replaces.freed_rebound (start : Nat) : (s.rebound start).Freed (.read r) := by
  intro k hk
  unfold hasStopped
  split
  · exact h.stopped_rebound start _ (List.mem_of_getElem? ‹_›)
  · rfl

include h in
theorem Replaces.atWork (hoffers : Offers origin terms s.stream) {source : σ} (hopen : s.ring.isClosed = false)
    (hconn : origin.connect s.stream.url s.attempts (s.restartAt r) = .ok source) :
    AtWork origin terms (s.joined source (s.restartAt r)) i r ((s.joined source (s.restartAt r)).lastWanted r) := by
  have hasked := h.fit.asked r (List.mem_of_getElem? h.task) h.going
  have hbound := h.fit.rebound (r := r) h.slot
  have hbegin : s.restartAt r < s.stream.size := by
    unfold restartAt
    omega
  have hfresh := hoffers.fills h.fit.capacity hbegin hconn
  have hjoined : Fit origin terms ((s.rebound (s.restartAt r)).install source (s.restartAt r)) := by
    refine hbound.install ?_ (h.stopped_rebound _) ?_ ?_ ?_ ?_
    · rw [slot_rebound, h.slot]
    · rwa [ring_rebound, Ring.isClosed_emptied]
    · rw [attempts_rebound]
      omega
    · rwa [attempts_rebound, stream_rebound]
    · rwa [attempts_rebound, stream_rebound, ring_rebound]
  refine ⟨hjoined.note .filling, ?_, ?_, h.going, ?_, ?_, ?_, ?_, rfl⟩
  · rw [joined, tasks_note, tasks_install, h.task_rebound]
  · rw [turns_joined, h.head]
  · intro k hk
    have hold := h.freed_rebound (s.restartAt r) k hk
    obtain ⟨f, hf, -⟩ := hbound.leaving _ (List.mem_of_getElem? (h.task_rebound _)) k hk
    simp only [hasStopped, hf] at hold
    simp only [joined, hasStopped, feeds_note, feeds_install,
      List.getElem?_append_left (List.getElem?_eq_some_iff.mp hf).1, hf, hold]
  · rw [slot_joined]
    rfl
  · rw [ring_joined, Ring.start_emptied]
    unfold restartAt
    omega
  -- The margin is less than the capacity, so the position lies in the new window.
  · have hm := h.fit.margin
    rw [reach, ring_joined, Ring.start_emptied, Ring.capacity_emptied]
    unfold restartAt
    omega

include h in
/-- A read that replaces the feed, the old one having stopped. -/
theorem Replaces.restarted (hoffers : Offers origin terms s.stream) (hr : Restarted origin s i r t) :
    Fit origin terms t := by
  cases hr with
  | shut hshut => exact h.fit.endTask h.task (List.mem_of_mem_head? h.head) h.freed rfl
  | refused hopen hconn =>
    have hhead : (s.rebound (s.restartAt r)).turns.head? = some i := by rw [turns_rebound, h.head]
    rw [finish_eq, endTask_note]
    exact ((h.fit.rebound h.slot).endTask (h.task_rebound _) (List.mem_of_mem_head? hhead) (h.freed_rebound _) rfl).note _
  | connected hopen hconn hlook => exact (h.atWork hoffers hopen hconn).looked hlook

end Replaces

end Session
end ReadAhead
