import ReadAhead.Proofs.Session.Await
import ReadAhead.Proofs.Session.Fidelity
import ReadAhead.Proofs.Session.Simulation

/-! A stream refines the reference machine. What the simulation of a step relies on, every step keeps
    (`Exact.step`), so whatever a stream does while its owner holds it, the machine does too. Chunks, delays
    and how far the feed runs ahead do not matter, since the machine knows nothing of them. -/

namespace ReadAhead

namespace Reference
variable {stream : Stream} {m n : Reference}

/-- Only closing puts into the line what is no read. -/
theorem Step.closing (h : Step stream m n) (hm : none ∈ m.asks → m.closed = true) : none ∈ n.asks → n.closed = true := by
  have hset : ∀ {i : Nat} {ask : Ask}, none ∈ m.asks.set i (some ask) → m.closed = true := by
    intro i ask hmem
    rcases List.mem_or_eq_of_mem_set hmem with hmem | heq
    · exact hm hmem
    · cases heq
  cases h with
  | ask len position =>
    intro hmem
    rcases List.mem_append.mp hmem with hmem | hmem
    · exact hm hmem
    · cases List.mem_singleton.mp hmem
  | close => exact fun _ => rfl
  | begin => exact hset
  | answer => exact hset
  | expire => exact hset
  | drop => exact hset
  | refuse => exact hset

theorem closing_of_reaches (h : Reaches stream m n) (hm : none ∈ m.asks → m.closed = true) :
    none ∈ n.asks → n.closed = true := by
  induction h with
  | refl => exact hm
  | tail _ hstep ih => exact hstep.closing ih

end Reference

namespace Session
variable {σ : Type} {origin : Origin σ} {s s₀ t : Session σ} {i last : Nat} {r : Reading}

/-! ### What a step keeps -/

/-- No connection was attempted, and neither the ring nor the stream was closed. -/
structure Untouched (s t : Session σ) : Prop where
  attempts : t.attempts = s.attempts
  feeds : t.feeds.length = s.feeds.length
  shut : t.ring.isClosed = s.ring.isClosed
  closed : t.closed = s.closed

theorem Tidy.untouched (h : Tidy s) (ht : Untouched s t)
    (hastray : t.closed = false → ∀ r, .read r ∈ t.tasks → (Task.read r).old?.isSome = true →
      ¬ Reference.Covers t.stream t.ring.start r.position) : Tidy t := by
  refine ⟨fun hshut => ?_, hastray, ?_⟩
  · rw [ht.closed]
    exact h.shut (by rw [← ht.shut, hshut])
  · rw [ht.attempts, ht.feeds, h.attempted]

theorem Tidy.untouched_of_none (h : Tidy s) (ht : Untouched s t) (hnone : ∀ x ∈ t.tasks, x.old? = none) : Tidy t := by
  refine h.untouched ht fun _ r hr hold => ?_
  rw [hnone _ hr] at hold
  cases hold

theorem Looked.untouched (hl : Looked s i r last t) : Untouched s t := by
  cases hl with
  | @served _ _ _ bytes left ht =>
    refine ⟨by simp, ?_, ?_, by simp⟩
    · simp [feeds_setRing]
    · simpa using ht.isClosed_eq
  | late => exact ⟨by simp, by simp, by simp, by simp⟩
  | waits => exact ⟨by simp, by simp, by simp, by simp⟩
  | closed => exact ⟨rfl, rfl, rfl, rfl⟩
  | shut => exact ⟨rfl, rfl, rfl, rfl⟩
  | short => exact ⟨rfl, rfl, rfl, rfl⟩

section Exact
variable (h : Exact origin s)

include h in
theorem Exact.tidy_readTurn (hi : s.tasks[i]? = some (.read r)) (hhead : s.turns.head? = some i)
    (ht : ReadTurn origin s i r t) : Tidy t := by
  have hlined := h.sound.lined
  cases ht with
  | closed => exact h.toTidy.untouched_of_none ⟨rfl, rfl, rfl, rfl⟩ (old?_of_mem_set hlined hhead rfl)
  | @dismiss old hp hc hstale hslot =>
    refine h.toTidy.untouched ⟨rfl, by simp [feeds_dismiss], rfl, rfl⟩ fun _ r' hr' hold => ?_
    rcases mem_set_cases hr' with heq | hr'
    · obtain rfl := Task.read.inj heq
      exact h.not_covers (by rw [hslot]; rfl) hc hstale
    · rw [old?_of_mem hlined hhead hi (by simp [Task.old?, hp]) _ hr'] at hold
      cases hold
  | restart hold hr =>
    have hnone := hr.old? hlined hhead
    cases hr with
    | shut => exact h.toTidy.untouched_of_none ⟨rfl, rfl, rfl, rfl⟩ hnone
    | refused hopen hconn => exact absurd hconn (h.not_refused hi (h.sound.replaces hi hhead hold).going _)
    | @connected source _ hopen hconn hlook =>
      have ht := hlook.untouched
      refine ⟨fun hshut => ?_, fun _ r' hr' hold => ?_, ?_⟩
      · rw [ht.shut, ring_joined, Ring.isClosed_emptied, hopen] at hshut
        cases hshut
      · rw [hnone _ hr'] at hold
        cases hold
      · rw [ht.attempts, ht.feeds, attempts_joined, h.attempted]
        simp
  | look _ hl => exact h.toTidy.untouched_of_none hl.untouched (hl.old? hlined hhead)
  | late => exact h.toTidy.untouched_of_none ⟨rfl, rfl, rfl, rfl⟩ (old?_of_mem_set hlined hhead rfl)

include h in
theorem Exact.tidy_closeStep {c : Closing} (hi : s.tasks[i]? = some (.close c)) : Tidy (s.closeStep i c) := by
  have hclosed := h.closing (List.mem_map.mpr ⟨_, List.mem_of_getElem? hi, rfl⟩)
  have hkeeps : ∀ u, Untouched s u → Tidy u := by
    intro u hu
    refine h.toTidy.untouched hu fun hopen => ?_
    have hboth : s.closed = false := by rw [← hu.closed, hopen]
    rw [hclosed] at hboth
    cases hboth
  unfold closeStep
  split
  · split
    · exact hkeeps _ ⟨rfl, by simp [feeds_dismiss], rfl, rfl⟩
    · exact hkeeps _ ⟨rfl, rfl, rfl, rfl⟩
  · split
    · exact hkeeps _ ⟨rfl, rfl, rfl, rfl⟩
    · exact h.toTidy
  · exact h.toTidy

include h in
theorem Exact.tidy_feedStep {k : Nat} (hready : s.feedReady k = true) : Tidy (s.feedStep origin k) := by
  obtain ⟨f, hk, hr⟩ := exists_of_feedReady hready
  have ht : Reringed s (s.feedStep origin k) _ := reringed_feedStep h.sound.ring hk hr
  have hw := Feed.worked_advance h.sound.ring origin hr
  have hring := ring_feedStep hk origin
  have hfeeds : (s.feedStep origin k).feeds.length = s.feeds.length := by
    have hopened := congrArg List.length ht.opened
    rwa [List.length_map, List.length_map] at hopened
  have hshut : (s.feedStep origin k).ring.isClosed = s.ring.isClosed := by rw [hring, hw.isClosed]
  have hstart : (s.feedStep origin k).ring.start = s.ring.start := by rw [hring, hw.start]
  refine h.toTidy.untouched ⟨ht.attempts, hfeeds, hshut, ht.closed⟩ fun hopen r hread hold => ?_
  obtain ⟨r', hr', -, hsame, -, hposition, -⟩ := read_of_told ht.tasks hread
  rw [ht.stream, hstart, hposition]
  exact h.astray (by rw [← ht.closed, hopen]) r' hr' (by rw [hsame, hold])

include h in
theorem Exact.tidy_act (hrest : s.IsSettled) (a : Act) : Tidy (s.act a) := by
  have hnone : ∀ x ∈ s.tasks, x.old? = none := fun x hx => h.sound.old?_of_isSettled hrest hx
  have hpush : ∀ (task : Task) (turns : List Nat), task.old? = none →
      Tidy { s with tasks := s.tasks ++ [task], turns } := by
    intro task turns htask
    refine h.toTidy.untouched_of_none ⟨rfl, rfl, rfl, rfl⟩ fun x hx => ?_
    rcases List.mem_append.mp hx with hx | hx
    · exact hnone x hx
    · rw [List.mem_singleton.mp hx, htask]
  cases a with
  | start len position timeout =>
    simp only [act, start]
    split
    · exact hpush _ s.turns rfl
    · split
      · exact hpush _ s.turns rfl
      · split
        · exact hpush _ s.turns rfl
        · exact hpush _ _ rfl
  | abandon i =>
    simp only [act, abandon]
    split
    · split
      · exact h.toTidy
      · refine h.toTidy.untouched_of_none ⟨rfl, rfl, rfl, rfl⟩ fun x hx => ?_
        rcases mem_set_cases hx with rfl | hx
        · rfl
        · exact hnone x hx
    · exact h.toTidy
  | close =>
    simp only [act, startClose]
    split
    · exact hpush _ s.turns rfl
    · refine ⟨fun _ => rfl, fun hopen => ?_, ?_⟩
      · cases hopen
      have hfeeds : (s.setRing s.ring.close.ring s.ring.close.woke).cancelAll.feeds.length = s.feeds.length := by
        simp [feeds_setRing]
      simp only [hfeeds, attempts_cancelAll, attempts_setRing, h.attempted]
  | letGo => exact h.toTidy.untouched_of_none ⟨rfl, rfl, rfl, rfl⟩ hnone

include h in
theorem Exact.tidy (hstep : Step origin s t) : Tidy t := by
  cases hstep with
  | @move m hm =>
    cases m with
    | feed k => exact h.tidy_feedStep hm
    | task i =>
      obtain ⟨hhead, hready⟩ := hm
      rw [move, turn]
      split
      · rename_i r hi
        exact h.tidy_readTurn hi hhead (h.sound.readTurn hi hready)
      · exact h.tidy_closeStep ‹_›
      · exact h.toTidy
    | stream =>
      have hforsaken : s.isForsaken = true := hm
      simp [isForsaken, h.held] at hforsaken
  | wait => exact ⟨h.shut, h.astray, h.attempted⟩
  | act a hrest => exact h.tidy_act hrest a

include h in
theorem Exact.step (hstep : Step origin s t) (hheld : t.held = true) : Exact origin t := by
  have hsound := h.sound.step h.offers hstep
  have hserves := h.serves
  have hscratch := h.scratch
  rw [← hstep.stream] at hsound hserves hscratch
  exact ⟨h.tidy hstep, hsound, hserves, hscratch, hheld,
    Reference.closing_of_reaches (h.simulates hstep hheld) h.closing⟩

include h in
/-- What a stream does while its owner holds it, the machine does too. -/
theorem Exact.reaches (hreach : Reaches origin s t) (hheld : t.held = true) :
    Exact origin t ∧ Reference.Reaches s.stream s.reference t.reference := by
  induction hreach with
  | refl => exact ⟨h, .refl⟩
  -- A stream that is held in the end was held all along.
  | tail hprev hstep ih =>
    obtain ⟨hexact, hsimulates⟩ := ih (hstep.held hheld)
    obtain ⟨-, hstream⟩ := h.sound.reaches h.offers hprev
    exact ⟨hexact.step hstep hheld, hsimulates.trans (hstream ▸ hexact.simulates hstep hheld)⟩

end Exact

theorem IsNew.exact (hnew : IsNew s) (hserves : ServesAll origin s.stream) (hscratch : 0 < s.stream.scratch) :
    Exact origin s ∧ s.reference = .fresh := by
  have hsound := hnew.sound origin fun _ => .whole s.stream.size
  obtain ⟨node, url, size, tier, readTimeout, maxReadTimeout, scratch, storage, now, -, rfl⟩ := hnew
  refine ⟨⟨⟨fun hshut => ?_, fun _ r hr => ?_, rfl⟩, hsound, hserves, hscratch, rfl, fun hmem => ?_⟩, rfl⟩
  · cases hshut
  · cases hr
  · cases hmem

/-- Whatever commands a new stream carries out for an owner who goes on holding it, if its source serves the whole
    file, then the stream shows as a state of the reference machine: the same answers to the same reads, and the
    same connections, each of them attempted once. And whoever waits for a read gets its result. -/
theorem performs_as_reference (hnew : IsNew s₀) (hserves : ServesAll origin s₀.stream) (hscratch : 0 < s₀.stream.scratch)
    (cs : List Command) (hkeep : .letGo ∉ cs) :
    Reference.Reaches s₀.stream .fresh (s₀.performAll origin cs).reference ∧
      (s₀.performAll origin cs).attempts = (s₀.performAll origin cs).reference.opened.length ∧
      ∀ len position timeout, ((s₀.performAll origin cs).read origin len position timeout).1.isSome = true := by
  obtain ⟨hexact, hfresh⟩ := hnew.exact hserves hscratch
  obtain ⟨hreach, -⟩ := reaches_performAll origin cs hnew.isSettled
  have hheld : (s₀.performAll origin cs).held = true := (held_performAll origin hkeep s₀).trans hexact.held
  obtain ⟨hend, hsimulates⟩ := hexact.reaches hreach hheld
  rw [hfresh] at hsimulates
  refine ⟨hsimulates, ?_, fun len position timeout => hend.sound.isSome_read hend.offers len position timeout⟩
  rw [hend.attempted]
  exact (List.length_map _).symm

theorem second_read_opens_once :
    Reference.Reaches twoBytes.stream .fresh secondRead.reference ∧ secondRead.reference.opened = [1] ∧
      secondRead.reference.asks = [some ⟨1, 1, .done (.ok (1, true))⟩] ∧ secondRead.attempts = 1 := by
  have hnew : IsNew twoBytes := ⟨_, _, _, _, _, _, _, _, _, rfl, rfl⟩
  have hserves : ServesAll (Origin.counting 2) twoBytes.stream := by
    intro attempt start hstart
    refine ⟨start, rfl, fun limit hlimit => Origin.counting_honours (fun p hp => hp) (fun p hp => ?_) start⟩
    rcases hp with hzero | hsize
    · omega
    · exact hsize
  obtain ⟨hreach, hattempts, -⟩ := performs_as_reference hnew hserves Nat.one_pos [.read 1 1 none] (by simp)
  rw [performAll_twoBytes] at hreach hattempts
  exact ⟨hreach, rfl, rfl, hattempts⟩

end Session
end ReadAhead
