import Mathlib.Order.RelClasses
import ReadAhead.Proofs.Session.Waiting

/-! Sessions whose steps are woven in any order. Nothing waits for the session to settle: whoever can take a
    step may take it, time may move at any moment, and the owner may act between any two steps, as far as
    `may` lets it. What a session goes through step by step is a special case. A session stays sound as long
    as its owner is patient, which is to let no read go that waits for a feed to stop
    (`Sound.weaves`). -/

namespace ReadAhead
namespace Session
variable {σ : Type} {origin : Origin σ} {terms : Nat → Origin.Terms} {may : Session σ → Act → Prop} {s s₀ t u : Session σ}

inductive Weave (origin : Origin σ) (may : Session σ → Act → Prop) (s : Session σ) : Session σ → Prop
  | move {m : Mover} (h : s.CanMove m) : Weave origin may s (s.move origin m)
  | wait {now : Nat} (hle : s.now ≤ now) : Weave origin may s { s with now }
  | act {a : Act} (h : may s a) : Weave origin may s (s.act a)

abbrev Weaves (origin : Origin σ) (may : Session σ → Act → Prop) : Session σ → Session σ → Prop :=
  Relation.ReflTransGen (Weave origin may)

theorem Weave.mono {may' : Session σ → Act → Prop} (h : Weave origin may s t) (hle : ∀ s a, may s a → may' s a) :
    Weave origin may' s t := by
  cases h with
  | move hm => exact .move hm
  | wait hnow => exact .wait hnow
  | act ha => exact .act (hle _ _ ha)

/-- The owner does not give up a read that waits for a feed to stop. -/
def Patient (s : Session σ) (a : Act) : Prop :=
  ∀ i task, a = .abandon i → s.tasks[i]? = some task → task.old? = none

/-- The owner is patient, or acts when nobody can take a step. -/
def Unhurried (s : Session σ) (a : Act) : Prop := s.IsSettled ∨ s.Patient a

/-- The owner gives up no read. -/
def Keeping (_ : Session σ) (a : Act) : Prop := ∀ i, a ≠ .abandon i

theorem patient_of_keeping {a : Act} (h : s.Keeping a) : s.Patient a := fun i _ ha => absurd ha (h i)

theorem weave_of_step (h : Step origin s t) : Weave origin (fun s _ => s.IsSettled) s t := by
  cases h with
  | move hm => exact .move hm
  | wait _ hle => exact .wait hle
  | act a hrest => exact .act hrest

theorem weaves_of_reaches (h : Reaches origin s t) : Weaves origin (fun _ _ => True) s t :=
  Relation.ReflTransGen.mono (fun _ _ hstep => (weave_of_step hstep).mono fun _ _ _ => trivial) _ _ h

/-! ### What woven steps keep -/

theorem Sound.weave (h : Sound origin terms s) (hoffers : Offers origin terms s.stream)
    (hmay : ∀ a, may s a → s.Patient a) (hstep : Weave origin may s t) : Sound origin terms t := by
  cases hstep with
  | move hm => exact h.move hoffers hm
  | wait => exact h.wait _
  | @act a ha => exact h.act fun i task hi htask => freed_of_none (hmay a ha i task hi htask)

/-- Whatever the source does, every session that a new stream comes to under a patient owner is sound. -/
theorem Sound.weaves (h : Sound origin (fun _ => .any) s) (hmay : ∀ u a, may u a → u.Patient a)
    (hweaves : Weaves origin may s t) : Sound origin (fun _ => .any) t := by
  induction hweaves with
  | refl => exact h
  | tail _ hstep ih => exact ih.weave (offers_any origin _) (hmay _) hstep

/-- When nobody can take a step, no read waits for a feed to stop, so that any owner is patient then. -/
theorem Sound.patient {a : Act} (h : Sound origin terms s) (ha : s.Unhurried a) : s.Patient a := by
  rcases ha with hrest | hpatient
  · intro i task _ hi
    exact h.old?_of_isSettled hrest (List.mem_of_getElem? hi)
  · exact hpatient

theorem Sound.patient_weaves (h : Sound origin (fun _ => .any) s) (hweaves : Weaves origin Unhurried s t) :
    Weaves origin Patient s t := by
  induction hweaves with
  | refl => exact .refl
  | tail _ hstep ih =>
    have hsound := h.weaves (fun _ _ => id) ih
    refine ih.tail ?_
    cases hstep with
    | move hm => exact .move hm
    | wait hle => exact .wait hle
    | act ha => exact .act (hsound.patient ha)

/-- What a session goes through step by step, its owner acting when nobody can take a step, is woven by an unhurried
    owner. -/
theorem unhurried_of_reaches (h : Reaches origin s t) : Weaves origin Unhurried s t :=
  Relation.ReflTransGen.mono (fun _ _ hstep => (weave_of_step hstep).mono fun _ _ => Or.inl) _ _ h

theorem Weave.over (h : Weave origin may s t) {i : Nat} {task : Task} (hi : s.tasks[i]? = some task)
    (hover : task.isOver = true) : t.tasks[i]? = some task := by
  cases h with
  | move hm => exact over_move hm hi hover
  | wait => exact hi
  | act => exact over_act _ hi hover

theorem Weave.stream (h : Weave origin may s t) : t.stream = s.stream := by
  cases h with
  | @move m _ => exact (spares_move origin s m).choose_spec.stream
  | wait => rfl
  | @act a _ => exact stream_act a s

theorem stream_weaves (h : Weaves origin may s t) : t.stream = s.stream := by
  induction h with
  | refl => rfl
  | tail _ hstep ih => exact hstep.stream.trans ih

/-! ### Steps that start no feed -/

/-- `t` comes after `s` without a connection attempted or a feed started in between. -/
structure Quiet (s t : Session σ) : Prop where
  closed : s.closed = true → t.closed = true
  attempts : t.attempts = s.attempts
  feeds : t.feeds.length = s.feeds.length
  slot : s.slot = none → t.slot = none
  running : ∀ (k : Nat) (g : Feed σ), t.feeds[k]? = some g → g.isStopped = false →
    ∃ f : Feed σ, s.feeds[k]? = some f ∧ f.isStopped = false

theorem Quiet.trans (h : Quiet s t) (h' : Quiet t u) : Quiet s u := by
  refine ⟨h'.closed ∘ h.closed, h'.attempts.trans h.attempts, h'.feeds.trans h.feeds, h'.slot ∘ h.slot,
    fun k g hk hg => ?_⟩
  obtain ⟨f, hf, hgo⟩ := h'.running k g hk hg
  exact h.running k f hf hgo

/-- Where every feed has stopped, none is at work after quiet steps. -/
theorem Quiet.stopped (h : Quiet s t) (hs : ∀ f ∈ s.feeds, f.isStopped = true) : ∀ g ∈ t.feeds, g.isStopped = true := by
  intro g hg
  obtain ⟨k, hk⟩ := List.mem_iff_getElem?.mp hg
  cases hrun : g.isStopped with
  | true => rfl
  | false =>
    obtain ⟨f, hf, hgo⟩ := h.running k g hk hrun
    rw [hs f (List.mem_of_getElem? hf)] at hgo
    cases hgo

theorem quiet_of_eq (hclosed : t.closed = s.closed) (hattempts : t.attempts = s.attempts) (hfeeds : t.feeds = s.feeds)
    (hslot : t.slot = s.slot) : Quiet s t :=
  ⟨fun h => hclosed.trans h, hattempts, by rw [hfeeds], fun h => hslot.trans h, fun _ g hk hg => ⟨g, hfeeds ▸ hk, hg⟩⟩

theorem Steady.quiet (h : Steady s t) : Quiet s t := quiet_of_eq h.closed h.attempts h.feeds h.slot

theorem Quiet.refl (s : Session σ) : Quiet s s := quiet_of_eq rfl rfl rfl rfl

theorem quiet_note (s : Session σ) (mark : Mark) : Quiet s (s.note mark) :=
  quiet_of_eq (closed_note ..) (attempts_note ..) (feeds_note ..) (slot_note ..)

theorem quiet_setRing (s : Session σ) (ring : Ring) (woke : Bool) : Quiet s (s.setRing ring woke) := by
  refine ⟨fun h => (closed_setRing ..).trans h, attempts_setRing .., by rw [feeds_setRing, List.length_map],
    fun h => (slot_setRing ..).trans h, fun k g hk hg => ?_⟩
  rw [feeds_setRing, List.getElem?_map] at hk
  obtain ⟨f, hf, rfl⟩ := Option.map_eq_some_iff.mp hk
  refine ⟨f, hf, ?_⟩
  split at hg <;> simpa using hg

theorem quiet_cancelAll (s : Session σ) : Quiet s s.cancelAll := by
  refine ⟨id, rfl, List.length_map .., id, fun k g hk hg => ?_⟩
  rw [feeds_cancelAll, List.getElem?_map] at hk
  obtain ⟨f, hf, rfl⟩ := Option.map_eq_some_iff.mp hk
  exact ⟨f, hf, hg⟩

theorem quiet_expire (s : Session σ) : Quiet s s.expire := (quiet_setRing s _ _).trans (quiet_cancelAll _)

theorem quiet_dismiss (s : Session σ) (old : Nat) : Quiet s (s.dismiss old) := by
  refine ⟨id, rfl, List.length_modify .., fun _ => rfl, fun k g hk hg => ?_⟩
  obtain ⟨f, hf, rfl⟩ := getElem?_dismiss s hk
  refine ⟨f, hf, ?_⟩
  split at hg <;> exact hg

theorem quiet_closeStep (s : Session σ) (i : Nat) (c : Closing) : Quiet s (s.closeStep i c) := by
  unfold Session.closeStep
  split
  · split
    · exact (quiet_dismiss s _).trans (quiet_of_eq rfl rfl rfl rfl)
    · exact quiet_of_eq rfl rfl rfl rfl
  · split <;> exact quiet_of_eq rfl rfl rfl rfl
  · exact Quiet.refl s

theorem quiet_feedStep {k : Nat} (hready : s.feedReady k = true) : Quiet s (s.feedStep origin k) := by
  obtain ⟨f, hk, hr⟩ := exists_of_feedReady hready
  have hring := quiet_setRing s (f.advance origin s.now s.ring).ring (f.advance origin s.now s.ring).woke
  rw [feedStep_eq hk]
  refine hring.trans ⟨id, rfl, List.length_set .., id, fun j g hj hg => ?_⟩
  rw [feeds_setFeed] at hj
  by_cases hkj : k = j
  · subst hkj
    refine ⟨if (f.advance origin s.now s.ring).woke then f.wake else f, ?_, ?_⟩
    · rw [feeds_setRing, List.getElem?_map, hk]
      rfl
    · have hrun := Feed.isStopped_of_isReady hr
      split <;> simpa using hrun
  · rw [List.getElem?_set_ne hkj] at hj
    exact ⟨g, hj, hg⟩

/-- The owner changes nothing but tasks, or closes an open stream. -/
theorem steady_or_closes (a : Act) (s : Session σ) : Steady s (s.act a) ∨
    s.closed = false ∧ ∃ tasks turns, s.act a = { s.expire with closed := true, tasks, turns } := by
  cases a with
  | start len position timeout =>
    left
    simp only [act, Session.start]
    repeat' split
    all_goals exact ⟨rfl, rfl, rfl, rfl, rfl, rfl, rfl⟩
  | abandon i =>
    left
    simp only [act, Session.abandon]
    repeat' split
    all_goals exact ⟨rfl, rfl, rfl, rfl, rfl, rfl, rfl⟩
  | close =>
    simp only [act, Session.startClose]
    split
    · exact Or.inl ⟨rfl, rfl, rfl, rfl, rfl, rfl, rfl⟩
    · exact Or.inr ⟨by simpa using ‹¬ s.closed = true›, _, _, rfl⟩
  | letGo => exact Or.inl ⟨rfl, rfl, rfl, rfl, rfl, rfl, rfl⟩

theorem quiet_act (a : Act) (s : Session σ) : Quiet s (s.act a) := by
  rcases steady_or_closes a s with h | ⟨-, tasks, turns, he⟩
  · exact h.quiet
  · -- The one change of `closed` that is no step of a feed or a task.
    rw [he]
    have hexpired := quiet_expire s
    exact ⟨fun _ => rfl, hexpired.attempts, hexpired.feeds, hexpired.slot, hexpired.running⟩

theorem Looked.quiet {r : Reading} {i last : Nat} (hl : Looked s i r last t) : Quiet s t := by
  rcases hl.steady_or_takes with ht | ⟨bytes, left, -, -, ht⟩
  · exact ht.quiet
  · exact (quiet_setRing s left true).trans ht.quiet

/-- A step starts no feed unless it is the turn of a read that replaces one. -/
theorem Weave.quiet_or_restarts
    (hturn : ∀ i r, s.tasks[i]? = some (.read r) → s.taskReady i = true → ReadTurn origin s i r (s.readStep origin i r))
    (h : Weave origin may s t) :
    Quiet s t ∨ ∃ i r, s.turns.head? = some i ∧ s.tasks[i]? = some (.read r) ∧
      ((r.phase = .queued ∧ s.closed = false ∧ s.slot = none) ∨
        ∃ old, r.phase = .replacing old ∧ s.hasStopped old = true) ∧ Restarted origin s i r t := by
  cases h with
  | wait => exact Or.inl (quiet_of_eq rfl rfl rfl rfl)
  | act => exact Or.inl (quiet_act _ s)
  | @move m hm =>
    cases m with
    | feed k => exact Or.inl (quiet_feedStep hm)
    | stream => exact Or.inl (quiet_expire s)
    | task i =>
      simp only [Session.move, Session.turn]
      split
      · rename_i r hi
        have hread := hturn i r hi hm.2
        generalize s.readStep origin i r = t at hread
        cases hread with
        | closed => exact Or.inl (quiet_of_eq rfl rfl rfl rfl)
        | dismiss => exact Or.inl ((quiet_dismiss s _).trans (quiet_of_eq rfl rfl rfl rfl))
        | restart hold hr => exact Or.inr ⟨i, r, hm.1, hi, hold, hr⟩
        | look _ hl => exact Or.inl hl.quiet
        | late => exact Or.inl (quiet_of_eq rfl rfl rfl rfl)
      · exact Or.inl (quiet_closeStep _ _ _)
      · exact Or.inl (Quiet.refl s)

/-! ### Sessions left alone -/

/-- Some task or feed takes a step, and time stands still. -/
def Goes (origin : Origin σ) (s t : Session σ) : Prop := ∃ m, s.CanMove m ∧ t = s.move origin m

theorem Goes.less (h : Goes origin s t) : Less t.effort s.effort := by
  obtain ⟨m, hm, rfl⟩ := h
  cases m with
  | feed k => exact effort_feedStep hm
  | task i => exact effort_turn hm.2
  | stream => exact effort_expire hm

theorem wellFounded_less : WellFounded Less :=
  WellFounded.prod_lex wellFounded_lt (WellFounded.prod_lex wellFounded_lt (WellFounded.prod_lex wellFounded_lt
    (WellFounded.prod_lex wellFounded_lt wellFounded_lt)))

/-- A session cannot go on for ever before time moves, in whatever order its tasks and feeds take their steps. -/
theorem acc_goes (origin : Origin σ) (s : Session σ) : Acc (fun u v => Goes origin v u) s :=
  Subrelation.accessible (fun h => h.less) (InvImage.accessible effort (wellFounded_less.apply s.effort))

/-- However the session goes on by itself, it comes to a state in which nobody can take a step, and there `P`
    holds. -/
inductive Comes (origin : Origin σ) (P : Session σ → Prop) : Session σ → Prop
  | intro {s : Session σ} (hrest : s.IsSettled → P s) (hgoes : ∀ t, Goes origin s t → Comes origin P t) : Comes origin P s

theorem comes_of_isSettled {P : Session σ → Prop}
    (h : ∀ t, Relation.ReflTransGen (Goes origin) s t → t.IsSettled → P t) : Comes origin P s := by
  induction acc_goes origin s with
  | intro s _ ih => exact .intro (h s .refl) fun t ht => ih t ht fun u hu => h u (.head ht hu)

theorem Comes.mono {P Q : Session σ → Prop} (h : Comes origin P s) (hle : ∀ t, P t → Q t) : Comes origin Q s := by
  induction h with
  | intro hrest _ ih => exact .intro (fun hs => hle _ (hrest hs)) ih

theorem weaves_of_goes (h : Relation.ReflTransGen (Goes origin) s t) : Weaves origin may s t := by
  induction h with
  | refl => exact .refl
  | tail _ hgoes ih =>
    obtain ⟨m, hm, rfl⟩ := hgoes
    exact ih.tail (.move hm)

end Session
end ReadAhead
