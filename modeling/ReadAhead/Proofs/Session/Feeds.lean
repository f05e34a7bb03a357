import ReadAhead.Proofs.Feed.Halt
import ReadAhead.Proofs.Session.Orderly

/-! What a step makes of the feeds, whoever owns the stream. One of them takes the step, or none does; the others are
    only told, of a change of the ring or to stop; and one that is new is fresh (`Orderly.feedCase`). So a feed that has
    stopped did so in a step of its own, and keeps of its reason what it did then (`stopped_for`). -/

namespace ReadAhead
namespace Feed
variable {σ : Type} {f g h : Feed σ}

/-- A feed and the same feed, once it was told to look again or to stop. -/
inductive Told (f : Feed σ) : Feed σ → Prop
  | refl : Told f f
  | wake {g : Feed σ} (h : Told f g) : Told f g.wake
  | cancel {g : Feed σ} (h : Told f g) : Told f g.cancel

theorem Told.trans (hfg : f.Told g) (hgh : g.Told h) : f.Told h := by
  induction hgh with
  | refl => exact hfg
  | wake _ ih => exact ih.wake
  | cancel _ ih => exact ih.cancel

theorem Told.isStopped (h : f.Told g) : g.isStopped = f.isStopped := by
  induction h with
  | refl => rfl
  | wake _ ih => rw [isStopped_wake, ih]
  | cancel _ ih => exact ih

theorem Told.failure (h : f.Told g) : g.failure = f.failure := by
  induction h with
  | refl => rfl
  | @wake g _ ih =>
    obtain ⟨phase, he⟩ := wake_eq g
    rw [he]
    exact ih
  | cancel _ ih => exact ih

theorem Told.closes (h : f.Told g) : g.closes = f.closes := by
  induction h with
  | refl => rfl
  | @wake g _ ih =>
    obtain ⟨phase, he⟩ := wake_eq g
    rw [he]
    exact ih
  | cancel _ ih => exact ih

end Feed

namespace Session
variable {σ : Type} {origin : Origin σ} {may : Session σ → Act → Prop} {s s₀ t u : Session σ} {i k last : Nat} {r : Reading}
  {f g : Feed σ}

/-- Every feed of `t` is one of `s` that was told something or nothing, or is one just started. -/
def Tells (s t : Session σ) : Prop :=
  ∀ (k : Nat) (g : Feed σ), t.feeds[k]? = some g →
    (∃ f, s.feeds[k]? = some f ∧ f.Told g) ∨ ∃ source start scratch, (Feed.fresh source start scratch).Told g

theorem tells_of_eq (h : t.feeds = s.feeds) : Tells s t := by
  intro k g hk
  rw [h] at hk
  exact Or.inl ⟨g, hk, .refl⟩

theorem Tells.trans (h : Tells s t) (h' : Tells t u) : Tells s u := by
  intro k g hk
  rcases h' k g hk with ⟨f, hf, hfg⟩ | hnew
  · rcases h k f hf with ⟨e, he, hef⟩ | ⟨source, start, scratch, hef⟩
    · exact Or.inl ⟨e, he, hef.trans hfg⟩
    · exact Or.inr ⟨source, start, scratch, hef.trans hfg⟩
  · exact Or.inr hnew

theorem tells_setRing (s : Session σ) (ring : Ring) (woke : Bool) : Tells s (s.setRing ring woke) := by
  intro k g hk
  rw [feeds_setRing, List.getElem?_map] at hk
  obtain ⟨f, hf, rfl⟩ := Option.map_eq_some_iff.mp hk
  refine Or.inl ⟨f, hf, ?_⟩
  split
  · exact .wake .refl
  · exact .refl

theorem tells_expire (s : Session σ) : Tells s s.expire := by
  refine (tells_setRing s s.ring.close.ring s.ring.close.woke).trans fun k g hk => ?_
  rw [Session.expire, feeds_cancelAll, List.getElem?_map] at hk
  obtain ⟨f, hf, rfl⟩ := Option.map_eq_some_iff.mp hk
  exact Or.inl ⟨f, hf, .cancel .refl⟩

theorem tells_dismiss (s : Session σ) (old : Nat) : Tells s (s.dismiss old) := by
  intro k g hk
  obtain ⟨f, hf, rfl⟩ := getElem?_dismiss s hk
  refine Or.inl ⟨f, hf, ?_⟩
  split
  · exact .cancel .refl
  · exact .refl

theorem tells_rebound (s : Session σ) (start : Nat) : Tells s (s.rebound start) :=
  (tells_setRing s (s.ring.emptied start) true).trans (tells_of_eq rfl)

theorem tells_joined (s : Session σ) (source : σ) (start : Nat) : Tells s (s.joined source start) := by
  refine (tells_rebound s start).trans fun k g hk => ?_
  rw [joined, feeds_note] at hk
  rcases getElem?_install hk with hold | ⟨-, rfl⟩
  · exact Or.inl ⟨g, hold, .refl⟩
  · exact Or.inr ⟨_, _, _, .refl⟩

theorem Looked.tells (hl : Looked s i r last t) : Tells s t := by
  rcases hl.steady_or_takes with ht | ⟨bytes, left, -, -, ht⟩
  · exact tells_of_eq ht.feeds
  · exact (tells_setRing s left true).trans (tells_of_eq ht.feeds)

theorem ReadTurn.tells (ht : ReadTurn origin s i r t) : Tells s t := by
  cases ht with
  | closed => exact tells_of_eq rfl
  | dismiss => exact (tells_dismiss s _).trans (tells_of_eq rfl)
  | restart _ hr =>
    cases hr with
    | shut => exact tells_of_eq rfl
    | refused => exact (tells_rebound s _).trans (tells_of_eq (feeds_note ..))
    | connected _ _ hlook => exact (tells_joined s _ _).trans hlook.tells
  | look _ hl => exact hl.tells
  | late => exact tells_of_eq rfl

theorem tells_closeStep (s : Session σ) (i : Nat) (c : Closing) : Tells s (s.closeStep i c) := by
  unfold Session.closeStep
  split
  · split
    · exact (tells_dismiss s _).trans (tells_of_eq rfl)
    · exact tells_of_eq rfl
  · split <;> exact tells_of_eq rfl
  · exact tells_of_eq rfl

theorem tells_act (a : Act) (s : Session σ) : Tells s (s.act a) := by
  rcases steady_or_closes a s with hs | ⟨-, tasks, turns, he⟩
  · exact tells_of_eq hs.feeds
  · rw [he]
    exact (tells_expire s).trans (tells_of_eq rfl)

/-- What feed `k` is after a step from `s` to `t`. -/
inductive FeedCase (origin : Origin σ) (s t : Session σ) (k : Nat) : Feed σ → Prop
  | told {f g : Feed σ} (hk : s.feeds[k]? = some f) (h : f.Told g) : FeedCase origin s t k g
  | fresh {source : σ} {start scratch : Nat} {g : Feed σ} (h : (Feed.fresh source start scratch).Told g) :
    FeedCase origin s t k g
  | advanced {f : Feed σ} (hk : s.feeds[k]? = some f) (hr : f.isReady s.now = true) (ht : t = s.move origin (.feed k)) :
    FeedCase origin s t k (f.advance origin s.now s.ring).feed

theorem Tells.feedCase (h : Tells s t) (hk : t.feeds[k]? = some g) : FeedCase origin s t k g := by
  rcases h k g hk with ⟨f, hf, htold⟩ | ⟨source, start, scratch, htold⟩
  · exact .told hf htold
  · exact .fresh htold

theorem Orderly.feedCase (h : s.Orderly) (hstep : Weave origin may s t) (hk : t.feeds[k]? = some g) :
    FeedCase origin s t k g := by
  cases h.stepCase hstep with
  | @feed j f hj hr =>
    by_cases hjk : j = k
    · subst hjk
      obtain rfl := Option.some.inj ((getElem?_feedStep hj origin).symm.trans hk)
      exact .advanced hj hr rfl
    · rw [feedStep_eq hj, feeds_setFeed, List.getElem?_set_ne hjk] at hk
      rcases tells_setRing s _ _ k g hk with ⟨f', hf', htold⟩ | ⟨source, start, scratch, htold⟩
      · exact .told hf' htold
      · exact .fresh htold
  | read _ _ hturn => exact hturn.tells.feedCase hk
  | close => exact (tells_closeStep s _ _).feedCase hk
  | expire => exact (tells_expire s).feedCase hk
  | @wait now =>
    have hsame : Tells s { s with now } := tells_of_eq rfl
    exact hsame.feedCase hk
  | @act a _ => exact (tells_act a s).feedCase hk

/-- On the way from `s₀` to `s` feed `k` took a step in which it stopped, and this was the reason. -/
def StoppedFor (origin : Origin σ) (may : Session σ → Act → Prop) (s₀ s : Session σ) (k : Nat) (reason : Feed.Reason) :
    Prop :=
  ∃ u f, Weaves origin may s₀ u ∧ u.feeds[k]? = some f ∧ u.CanMove (.feed k) ∧ f.StopsFor origin u.ring reason ∧
    Weaves origin may (u.move origin (.feed k)) s

theorem StoppedFor.tail {reason : Feed.Reason} (h : StoppedFor origin may s₀ s k reason) (hstep : Weave origin may s t) :
    StoppedFor origin may s₀ t k reason := by
  obtain ⟨u, f, hu, hk, hm, hstops, hus⟩ := h
  exact ⟨u, f, hu, hk, hm, hstops, hus.tail hstep⟩

/-- What a stopped feed keeps as its failure is what it kept of the reason for which it stopped. -/
theorem stopped_for (hnew : IsNew s₀) (hs : Weaves origin may s₀ s) (hk : s.feeds[k]? = some f)
    (hstopped : f.isStopped = true) : ∃ reason, StoppedFor origin may s₀ s k reason ∧ f.failure = reason.failure := by
  induction hs generalizing f with
  | refl =>
    rw [hnew.feeds_eq_nil] at hk
    cases hk
  | @tail u v hsu hstep ih =>
    have horderly := hnew.orderly.weaves hsu
    cases horderly.feedCase hstep hk with
    | told hf htold =>
      obtain ⟨reason, hfor, hfailure⟩ := ih hf (htold.isStopped.symm.trans hstopped)
      exact ⟨reason, hfor.tail hstep, htold.failure.trans hfailure⟩
    | fresh htold => cases hstopped.symm.trans htold.isStopped
    | @advanced f hf hr ht =>
      have hm : u.CanMove (.feed k) := by
        simp only [CanMove, feedReady, hf]
        exact hr
      rcases Feed.stops_advance horderly.ring origin hr with hgoes | ⟨reason, hstops, hhalted⟩
      · cases hstopped.symm.trans hgoes.running
      · exact ⟨reason, ⟨u, f, hsu, hf, hm, hstops, ht ▸ .refl⟩, hhalted.failure⟩

/-- No feed at work has failed. -/
def Unfailed (s : Session σ) : Prop :=
  ∀ (k : Nat) (f : Feed σ), s.feeds[k]? = some f → f.isStopped = false → f.failure = none

theorem Unfailed.weave (h : s.Unfailed) (horderly : s.Orderly) (hstep : Weave origin may s t) : t.Unfailed := by
  intro k g hk hgo
  cases horderly.feedCase hstep hk with
  | told hf htold => exact htold.failure.trans (h k _ hf (htold.isStopped.symm.trans hgo))
  | fresh htold => exact htold.failure
  | advanced hf hr =>
    rcases Feed.stops_advance horderly.ring origin hr with hgoes | ⟨reason, -, hhalted⟩
    · exact hgoes.failure.trans (h k _ hf (Feed.isStopped_of_isReady hr))
    · cases hgo.symm.trans hhalted.stopped

end Session
end ReadAhead
