import ReadAhead.Proofs.Session.Feeds
import ReadAhead.Proofs.Session.Producer

/-! No connection is leaked, and none closed twice. Each is owned by the feed that reads it, which closes it when it
    stops and never again (`Feed.Balanced`), so what is still open belongs to the feeds at work. In a settled session
    that is at most the one in the slot: the others were told to stop, and had the time to. -/

namespace ReadAhead

namespace Feed
variable {σ : Type} {origin : Origin σ} {now : Nat} {ring : Ring} {f : Feed σ}

/-- The source has been closed once if the feed has stopped, and else not yet. -/
def Balanced (f : Feed σ) : Prop := f.closes = if f.isStopped then 1 else 0

theorem balanced_fresh (source : σ) (start scratch : Nat) : (fresh source start scratch).Balanced := rfl

theorem Balanced.told {g : Feed σ} (h : f.Balanced) (hg : f.Told g) : g.Balanced := by
  rw [Balanced, hg.closes, hg.isStopped]
  exact h

theorem Balanced.advance (h : f.Balanced) (hring : ring.Sound) (origin : Origin σ) (hr : f.isReady now = true) :
    (f.advance origin now ring).feed.Balanced := by
  have hopen : f.closes = 0 := by
    rw [Balanced, isStopped_of_isReady hr] at h
    exact h
  unfold Balanced
  rcases stops_advance hring origin hr with hgoes | ⟨reason, -, hstopped⟩
  · rw [hgoes.running, hgoes.closes, hopen]
    rfl
  · rw [hstopped.stopped, hstopped.closes, hopen]
    rfl

/-- Of balanced feeds, just those at work have a source that is not closed. -/
theorem closes_add_running {feeds : List (Feed σ)} (h : ∀ f ∈ feeds, f.Balanced) :
    total (feeds.map closes) + feeds.countP (fun f => !f.isStopped) = feeds.length := by
  induction feeds with
  | nil => rfl
  | cons f feeds ih =>
    have hrest := ih fun g hg => h g (List.mem_cons_of_mem f hg)
    have hf : f.closes = _ := h f List.mem_cons_self
    rw [List.map_cons, total_cons, List.countP_cons, List.length_cons, hf]
    cases f.isStopped <;> simp <;> omega

end Feed

namespace Session
variable {σ : Type} {origin : Origin σ} {may : Session σ → Act → Prop} {s s₀ t : Session σ}

/-! ### Feeds close their sources once -/

def Balanced (s : Session σ) : Prop := ∀ f ∈ s.feeds, f.Balanced

theorem Balanced.weave (h : s.Balanced) (horderly : s.Orderly) (hstep : Weave origin may s t) : t.Balanced := by
  intro g hg
  obtain ⟨k, hk⟩ := List.mem_iff_getElem?.mp hg
  cases horderly.feedCase hstep hk with
  | told hf htold => exact (h _ (List.mem_of_getElem? hf)).told htold
  | fresh htold => exact (Feed.balanced_fresh _ _ _).told htold
  | advanced hf hr => exact (h _ (List.mem_of_getElem? hf)).advance horderly.ring origin hr

theorem Balanced.weaves (h : s.Balanced) (horderly : s.Orderly) (hweaves : Weaves origin may s t) : t.Balanced := by
  induction hweaves with
  | refl => exact h
  | tail hsu hstep ih => exact ih.weave (horderly.weaves hsu) hstep

theorem Balanced.sourceCloses_add_running (h : s.Balanced) : s.sourceCloses + s.running = s.feeds.length :=
  Feed.closes_add_running h

/-- When every feed has stopped, every source has been closed. -/
theorem Balanced.length_of_stopped (h : s.Balanced) (hstopped : ∀ f ∈ s.feeds, f.isStopped = true) :
    s.feeds.length = s.sourceCloses := by
  have hnone : s.running = 0 := List.countP_eq_zero.mpr fun f hf hgo => by
    rw [hstopped f hf] at hgo
    cases hgo
  rw [← h.sourceCloses_add_running, hnone, Nat.add_zero]

/-! ### Sessions at their end -/

theorem Orderly.stopped_weaves (h : s.Orderly) (hshut : s.ring.isClosed = true)
    (hstopped : ∀ f ∈ s.feeds, f.isStopped = true) (hweaves : Weaves origin may s t) :
    t.ring.isClosed = true ∧ ∀ f ∈ t.feeds, f.isStopped = true := by
  induction hweaves with
  | refl => exact ⟨hshut, hstopped⟩
  | tail hsu hstep ih =>
    obtain ⟨hclosed, hrest⟩ := ih
    have horderly := h.weaves hsu
    exact ⟨horderly.isClosed_weave hclosed hstep, (horderly.quiet_weave hclosed hstep).stopped hrest⟩

/-! ### Settled sessions -/

/-- In a settled session only the feed in the slot can be at work. -/
theorem Orderly.running_le_one (h : s.Orderly) (hrest : s.IsSettled) : s.running ≤ 1 := by
  refine countP_le_one (k := s.slot.getD 0) fun k f hk hgo => ?_
  by_cases hslot : s.slot = some k
  · rw [hslot]
    rfl
  · rw [h.isStopped hrest hk hslot] at hgo
    cases hgo

theorem Orderly.stopped_of_current (h : s.Orderly) (hrest : s.IsSettled)
    (hcurrent : ∀ f, s.current? = some f → f.isStopped = true) : ∀ f ∈ s.feeds, f.isStopped = true := by
  intro f hf
  obtain ⟨k, hk⟩ := List.mem_iff_getElem?.mp hf
  by_cases hslot : s.slot = some k
  · refine hcurrent f ?_
    rw [current?, hslot]
    exact hk
  · exact h.isStopped hrest hk hslot

/-- A settled session that is closed, or that nobody holds any more, has its ring closed. -/
theorem Orderly.isClosed_of_end (h : s.Orderly) (hrest : s.IsSettled)
    (hend : s.closed = true ∨ s.held = false ∧ ∀ x ∈ s.tasks, x.isOver = true) : s.ring.isClosed = true := by
  rcases hend with hclosed | ⟨hheld, hover⟩
  · exact h.shut hclosed
  · cases hopen : s.ring.isClosed with
    | true => rfl
    | false =>
      refine absurd ?_ (hrest.not_canMove .stream)
      simp only [CanMove, isForsaken, hheld, hopen, Bool.not_false, Bool.true_and, Bool.and_true, List.all_eq_true]
      exact hover

/-- Whatever the owner of a new stream does and in whatever order the steps are taken, no source is closed twice; in a
    settled session at most one source is not closed, and none if the feed in the slot has stopped; and from a
    settled session on that is closed, or that nobody holds any more, every source is and stays closed. -/
theorem closes_all_but_current (hnew : IsNew s₀) (hs : Weaves origin (fun _ _ => True) s₀ s) :
    (∀ f ∈ s.feeds, f.closes ≤ 1) ∧
      (s.IsSettled →
        (s.feeds.length = s.sourceCloses ∨ s.feeds.length = s.sourceCloses + 1) ∧
        ((∀ f, s.current? = some f → f.isStopped = true) → s.feeds.length = s.sourceCloses) ∧
        (s.closed = true ∨ s.held = false ∧ (∀ x ∈ s.tasks, x.isOver = true) →
          ∀ t, Weaves origin (fun _ _ => True) s t → t.feeds.length = t.sourceCloses)) := by
  have horderly : s.Orderly := hnew.orderly.weaves hs
  have hbalanced : s.Balanced := by
    refine Balanced.weaves ?_ hnew.orderly hs
    intro f hf
    rw [hnew.feeds_eq_nil] at hf
    cases hf
  refine ⟨fun f hf => ?_, fun hrest => ⟨?_, fun hcurrent => ?_, fun hend t ht => ?_⟩⟩
  · have hcount : f.closes = _ := hbalanced f hf
    rw [hcount]
    split <;> simp
  · have hcount := hbalanced.sourceCloses_add_running
    have hone := horderly.running_le_one hrest
    omega
  · exact hbalanced.length_of_stopped (horderly.stopped_of_current hrest hcurrent)
  · have hshut := horderly.isClosed_of_end hrest hend
    have hstopped : ∀ f ∈ s.feeds, f.isStopped = true := fun f hf => by
      obtain ⟨k, hk⟩ := List.mem_iff_getElem?.mp hf
      exact isStopped_of_isSettled hrest hk (horderly.stopping hshut f hf)
    obtain ⟨-, hlater⟩ := horderly.stopped_weaves hshut hstopped ht
    exact (hbalanced.weaves horderly ht).length_of_stopped hlater

/-- Two feeds are at work in `crossed`; the old one stops, and the new one asks its source. -/
def uncrossed : Session Unit := ((crossed.feedStep slow 0).feedStep slow 1).turn slow 2

/-- Then the stream is closed. -/
def uncrossedClosed : Session Unit := ((uncrossed.startClose.feedStep slow 1).turn slow 3).turn slow 3

theorem weaves_uncrossed : Weaves slow (fun _ _ => True) fourBytes uncrossed :=
  ((weaves_crossed.tail (.move (m := .feed 0) rfl)).tail (.move (m := .feed 1) rfl)).tail (.move (m := .task 2) ⟨rfl, rfl⟩)

theorem weaves_uncrossedClosed : Weaves slow (fun _ _ => True) fourBytes uncrossedClosed :=
  (((weaves_uncrossed.tail (.act (a := .close) trivial)).tail (.move (m := .feed 1) rfl)).tail
    (.move (m := .task 3) ⟨rfl, rfl⟩)).tail (.move (m := .task 3) ⟨rfl, rfl⟩)

theorem one_of_two_is_open :
    (uncrossed.feeds.length = 2 ∧ (2 = uncrossed.sourceCloses ∨ 2 = uncrossed.sourceCloses + 1) ∧
      ∀ f ∈ uncrossed.feeds, f.closes ≤ 1) ∧
    uncrossedClosed.feeds.length = 2 ∧
      ∀ t, Weaves slow (fun _ _ => True) uncrossedClosed t → t.feeds.length = t.sourceCloses := by
  obtain ⟨honce, hsettled⟩ := closes_all_but_current isNew_fourBytes weaves_uncrossed
  obtain ⟨hopen, -⟩ := hsettled rfl
  obtain ⟨-, hsettled'⟩ := closes_all_but_current isNew_fourBytes weaves_uncrossedClosed
  obtain ⟨-, -, hclosed⟩ := hsettled' rfl
  exact ⟨⟨rfl, hopen, honce⟩, rfl, hclosed (Or.inl rfl)⟩

end Session
end ReadAhead
