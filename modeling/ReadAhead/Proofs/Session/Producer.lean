import ReadAhead.Proofs.Session.Weave

/-! One feed at work. A step either starts no feed, or is that of a read which found every feed stopped
    (`Sound.weave_cases`). So under a patient owner only the newest feed can be at work, and while it is, nobody
    but it writes to the ring or marks it finished.

    It takes the patience. A read that waits for the old feed to stop has taken it out of the slot already. If it
    is given up there, nobody waits for that feed any more: the next read finds the slot empty and starts
    another, and the old one marks the ring of the new one finished (`ended_by_old_feed`). -/

namespace ReadAhead
namespace Session
variable {σ : Type} {origin : Origin σ} {terms : Nat → Origin.Terms} {may : Session σ → Act → Prop} {s s₀ t : Session σ}
  {i : Nat}

/-- Of the feeds only the newest can be at work. -/
def Newest (s : Session σ) : Prop :=
  ∀ (k : Nat) (f : Feed σ), s.feeds[k]? = some f → f.isStopped = false → k + 1 = s.feeds.length

theorem Quiet.newest (h : Quiet s t) (hs : s.Newest) : t.Newest := by
  intro k g hk hg
  obtain ⟨f, hf, hgo⟩ := h.running k g hk hg
  rw [h.feeds]
  exact hs k f hf hgo

theorem newest_of_stopped (h : ∀ f ∈ s.feeds, f.isStopped = true) : s.Newest := by
  intro k f hk hgo
  rw [h f (List.mem_of_getElem? hk)] at hgo
  cases hgo

theorem newest_install {source : σ} {start : Nat} (h : ∀ f ∈ s.feeds, f.isStopped = true) :
    (s.install source start).Newest := by
  intro k g hk hg
  rcases getElem?_install hk with hold | ⟨rfl, -⟩
  · rw [h g (List.mem_of_getElem? hold)] at hg
    cases hg
  · rw [feeds_install, List.length_append, List.length_singleton]

theorem Restarted.cases {r : Reading} (h : Replaces origin terms s i r) (hr : Restarted origin s i r t) :
    Quiet s t ∨ t.Newest := by
  cases hr with
  | shut => exact Or.inl (quiet_of_eq rfl rfl rfl rfl)
  | refused =>
    right
    refine newest_of_stopped fun f hf => h.stopped_rebound (s.restartAt r) f ?_
    rw [finish_eq, feeds_endTask, feeds_note] at hf
    exact hf
  | connected _ _ hlook =>
    right
    refine hlook.quiet.newest ((quiet_note _ _).newest (newest_install ?_))
    exact h.stopped_rebound (s.restartAt r)

/-- A step starts no feed, or every feed had stopped before, and at most the one it starts is at work. -/
theorem Sound.weave_cases (h : Sound origin terms s) (hstep : Weave origin may s t) :
    Quiet s t ∨ (∀ f ∈ s.feeds, f.isStopped = true) ∧ t.Newest := by
  rcases hstep.quiet_or_restarts fun _ _ hi hready => h.readTurn hi hready with hquiet | ⟨i, r, hhead, hi, hold, hr⟩
  · exact Or.inl hquiet
  · have hreplaces := h.replaces hi hhead hold
    refine (hr.cases hreplaces).imp_right fun hnewest => ⟨?_, hnewest⟩
    exact hreplaces.fit.all_stopped hreplaces.slot hhead hi hreplaces.freed

theorem Sound.newest_weaves (h : Sound origin (fun _ => .any) s) (hmay : ∀ u a, may u a → u.Patient a)
    (hweaves : Weaves origin may s t) (hs : s.Newest) : t.Newest := by
  induction hweaves with
  | refl => exact hs
  | tail hsu hstep ih =>
    rcases (h.weaves hmay hsu).weave_cases hstep with hquiet | ⟨-, hnewest⟩
    · exact hquiet.newest ih
    · exact hnewest

/-- Under a patient owner, in whatever order the steps are taken: a connection is attempted, the ring being
    emptied for it, only when every feed has stopped; only the feed started last can be at work; and while the
    feed in the slot is at work on an open ring, the ring is not marked finished. -/
theorem one_feed_at_work (hnew : IsNew s₀) (hs : Weaves origin Patient s₀ s) :
    (∀ t, Weave origin Patient s t → t.attempts ≠ s.attempts → ∀ f ∈ s.feeds, f.isStopped = true) ∧
      (∀ k f, s.feeds[k]? = some f → f.isStopped = false → k + 1 = s.feeds.length) ∧
      (∀ k f, s.slot = some k → s.feeds[k]? = some f → f.isStopped = false → s.ring.isClosed = false →
        s.ring.stop = none) := by
  have hsound := (hnew.sound origin fun _ => .any).weaves (fun _ _ => id) hs
  refine ⟨fun t hstep hne => ?_, ?_, fun k f hslot hf hgo hopen => ?_⟩
  · rcases hsound.weave_cases hstep with hquiet | ⟨hstopped, -⟩
    · exact absurd hquiet.attempts hne
    · exact hstopped
  · refine (hnew.sound origin fun _ => .any).newest_weaves (fun _ _ => id) hs ?_
    obtain ⟨node, url, size, tier, readTimeout, maxReadTimeout, scratch, storage, now, -, rfl⟩ := hnew
    exact fun k f hk => nomatch hk
  · obtain ⟨g, hg, hserves⟩ := hsound.serving k hslot
    obtain rfl := Option.some.inj (hg.symm.trans hf)
    obtain ⟨-, hfills⟩ := hserves.fills hopen
    rw [hfills.stop, hgo]
    rfl

/-! ### A feed replaced, and an owner without patience -/

def fourBytes : Session Unit :=
  onStorage (Stream.of 1 "http://origin/file" 4 ⟨1, 0⟩ (.ofSeconds 1) (.ofSeconds 1) 1) (Bytes.ofFn 1 fun _ => 0) 0

/-- A read waits for its feed, and is given up. The next one needs another feed, and waits for the first to stop. -/
def replacing : Session Unit :=
  let first := (fourBytes.start 1 0 none).turn slow 0
  ((first.abandon 0).2.start 1 3 none).turn slow 1

theorem isNew_fourBytes : IsNew fourBytes := ⟨_, _, _, _, _, _, _, _, _, rfl, rfl⟩

theorem weaves_replacing : Weaves slow Patient fourBytes replacing := by
  have hstart : ∀ (s : Session Unit) (position : Nat), s.Patient (.start 1 position none) := fun _ _ _ _ h => nomatch h
  have hfirst : Weaves slow Patient fourBytes ((fourBytes.start 1 0 none).turn slow 0) :=
    .tail (.single (.act (hstart _ 0))) (.move (m := .task 0) ⟨rfl, rfl⟩)
  -- the read given up waits for bytes, not for a feed to stop
  have hgiven : ((fourBytes.start 1 0 none).turn slow 0).Patient (.abandon 0) := by
    rintro i task ⟨⟩ htask
    obtain rfl := Option.some.inj htask
    rfl
  exact ((hfirst.tail (.act hgiven)).tail (.act (hstart _ 3))).tail (.move (m := .task 1) ⟨rfl, rfl⟩)

theorem replacing_opens_nothing : IsNew fourBytes ∧ Weaves slow Patient fourBytes replacing ∧
    ∀ t, Weave slow Patient replacing t → t.attempts = replacing.attempts := by
  refine ⟨isNew_fourBytes, weaves_replacing, fun t hstep => ?_⟩
  by_contra hne
  obtain ⟨f, hf, hgo⟩ : ∃ f, replacing.feeds[0]? = some f ∧ f.isStopped = false := ⟨_, rfl, rfl⟩
  have hstopped := (one_feed_at_work isNew_fourBytes weaves_replacing).1 t hstep hne f (List.mem_of_getElem? hf)
  rw [hgo] at hstopped
  cases hstopped

/-- The second read is given up as well, before the feed has stopped, and a third one starts a feed. -/
def crossed : Session Unit := ((replacing.abandon 1).2.start 1 3 none).turn slow 2

theorem weaves_crossed : Weaves slow (fun _ _ => True) fourBytes crossed := by
  have hreplacing : Weaves slow (fun _ _ => True) fourBytes replacing :=
    Relation.ReflTransGen.mono (fun _ _ h => Weave.mono h fun _ _ _ => trivial) _ _ weaves_replacing
  exact ((hreplacing.tail (.act (a := .abandon 1) trivial)).tail (.act (a := .start 1 3 none) trivial)).tail
    (.move (m := .task 2) ⟨rfl, rfl⟩)

/-- Then two feeds are at work. When the old one stops, it marks the ring finished while the new one, which is in
    the slot, has not begun; and the read that waits for the new one fails, since the feed ended. -/
theorem ended_by_old_feed : ∃ s t : Session Unit, IsNew fourBytes ∧ Weaves slow (fun _ _ => True) fourBytes s ∧
    Weave slow (fun _ _ => True) s t ∧
    (∃ old new, s.feeds[0]? = some old ∧ old.isStopped = false ∧ s.feeds[1]? = some new ∧ new.isStopped = false) ∧
    s.slot = some 1 ∧ t.slot = some 1 ∧ s.ring.stop = none ∧ t.ring.stop = some 3 ∧
    (∃ new, t.feeds[1]? = some new ∧ new.isStopped = false) ∧
    (t.turn slow 2).result? 2 = some (.error (.ended 3)) := by
  refine ⟨crossed, crossed.feedStep slow 0, isNew_fourBytes, weaves_crossed,
    .move (m := .feed 0) rfl, ⟨_, _, rfl, rfl, rfl, rfl⟩, rfl, rfl, rfl, rfl, ⟨_, rfl, rfl⟩, rfl⟩

end Session
end ReadAhead
