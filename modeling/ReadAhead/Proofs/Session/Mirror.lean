import ReadAhead.Proofs.Session.Beside
import ReadAhead.Proofs.Session.Lifecycle
import ReadAhead.Proofs.Session.Resident

/-! What sessions side by side show. A read that takes its turn on an open ring notes what it comes to, and then both
    show the same (`Beside.look_open`, `Beside.restart_open`). So if they were apart they stay so only as long as no read
    takes its turn (`Mirrors`), through steps, through runs and through all that the owner asks for
    (`Mirrors.performAll`). -/

namespace ReadAhead
namespace Session
variable {σ : Type} {origin : Origin σ} {may : Session σ → Act → Prop} {s s₀ t u base : Session σ} {n i last : Nat}
  {x : Task} {r : Reading} {apart : Prop}

/-- The owner acts when nobody can take a step. -/
abbrev Leisurely (s : Session σ) (_ : Act) : Prop := s.IsSettled

/-- The session comes from a new stream, whoever owns it. -/
def Arises (origin : Origin σ) (s : Session σ) : Prop := ∃ s₀, IsNew s₀ ∧ Weaves origin (fun _ _ => True) s₀ s

theorem arises (hnew : IsNew s₀) (hs : Weaves origin may s₀ s) : Arises origin s :=
  ⟨s₀, hnew, Relation.ReflTransGen.mono (fun _ _ hstep => hstep.mono fun _ _ _ => trivial) _ _ hs⟩

theorem Arises.weave (h : Arises origin s) (hstep : Weave origin may s t) : Arises origin t := by
  obtain ⟨s₀, hnew, hs⟩ := h
  exact ⟨s₀, hnew, hs.tail (hstep.mono fun _ _ _ => trivial)⟩

theorem Arises.weaves (h : Arises origin s) (hst : Weaves origin may s t) : Arises origin t := by
  induction hst with
  | refl => exact h
  | tail _ hstep ih => exact ih.weave hstep

theorem Arises.orderly (h : Arises origin s) : s.Orderly := by
  obtain ⟨s₀, hnew, hs⟩ := h
  exact hnew.orderly.weaves hs

/-- The session comes from a new stream, and all its tasks are over. -/
structure Rests (origin : Origin σ) (base : Session σ) : Prop where
  arises : Arises origin base
  idle : ∀ y ∈ base.tasks, y.isOver = true

theorem Orderly.old?_of_isSettled (h : s.Orderly) (hrest : s.IsSettled) (hx : x ∈ s.tasks) : x.old? = none :=
  h.lined.old?_of_isSettled hrest (fun _ => h.freed hrest) hx

/-! ### Turns that note something -/

theorem Beside.serve_open (h : Beside n x apart t s) (hring : s.ring.Sound) (hopen : s.closed = false)
    (hres : s.ring.isResident r.position = true) : Beside n x False (t.serve (past n i) r) (s.serve i r) := by
  obtain ⟨bytes, left, hread, -⟩ := Ring.readAt_of_resident hring hres r.len
  have hleft := h.setRing left true
  unfold Session.serve
  simp only [h.ring, hread, hleft.stream]
  exact (hleft.note_open (by rwa [closed_setRing]) .ready).finish i r _

/-- A read that looks finds its bytes, or they are pending, unless the feed ended before them. -/
theorem Beside.look_open (h : Beside n x apart t s) (hring : s.ring.Sound) (hopen : s.closed = false)
    (hlive : s.ring.isClosed = false) (hlow : s.ring.start ≤ r.position) (hlast : r.position ≤ last)
    (hgo : ∀ stop, s.ring.availability last ≠ .ok (.ended stop)) :
    Beside n x False (t.look (past n i) r last) (s.look i r last) := by
  have havail : s.ring.availability last = _ := Ring.availability_of_open hlive
  unfold Session.look
  simp only [h.closed, hopen, h.ring, Bool.false_eq_true, if_false]
  cases hres : s.ring.isResident last with
  | true =>
    rw [hres, if_pos rfl] at havail
    obtain ⟨-, -, hhigh⟩ := (Ring.isResident_iff hring).mp hres
    rw [havail]
    exact h.serve_open hring hopen ((Ring.isResident_iff hring).mpr ⟨hlive, hlow, by omega⟩)
  | false =>
    have hpending : s.ring.availability last = .ok .pending := by
      rw [hres, if_neg (by simp)] at havail
      split at havail
      · split at havail
        · exact absurd havail (hgo _)
        · exact havail
      · exact havail
    have hnote := h.note_open hopen .filling
    rw [hpending]
    simp only [hnote.now]
    split
    · exact hnote.finish i r _
    · exact hnote.setTask i _

theorem Beside.restart_open (h : Beside n x apart t s) (hopen : s.closed = false) (hlive : s.ring.isClosed = false) :
    Beside n x False (t.restart origin (past n i) r) (s.restart origin i r) := by
  have hempty := h.setRing (s.ring.emptied (r.position - s.stream.tier.margin)) true
  have hstill : (s.setRing (s.ring.emptied (r.position - s.stream.tier.margin)) true).countAttempt.closed = false := by
    rwa [closed_countAttempt, closed_setRing]
  unfold Session.restart
  simp only [h.ring, h.stream, Ring.reset_of_open hlive]
  unfold Session.connect
  rw [hempty.stream, hempty.attempts]
  split
  · exact (hempty.countAttempt.note_open hstill .idle).finish i r _
  · rename_i source _
    have hjoined := (hempty.countAttempt.install source (r.position - s.stream.tier.margin)).note_open hstill .filling
    simp only [hjoined.lastWanted]
    exact hjoined.look i r _

/-! ### What is not noted yet -/

/-- Since `base` no read has taken its turn; or one has, and still waits for a feed to stop; or the ring is closed, and
    nothing is noted any more. -/
inductive Unnoted (origin : Origin σ) (base s : Session σ) : Prop
  | still (h : LastTurn origin Leisurely base none s)
  | replacing {x : Task} (hx : x ∈ s.tasks) (hold : x.old?.isSome = true)
  | shut (h : s.ring.isClosed = true)

theorem Unnoted.told (h : Unnoted origin base s) (hs : s.Orderly) (hstep : Weave origin Leisurely s t) {woke : Bool}
    (ht : t.tasks = s.tasks.map fun x => if woke then x.wake else x) : Unnoted origin base t := by
  cases h with
  | still h => exact .still (h.other hstep (hs.no_turn_of_told woke ht))
  | @replacing x hx hold =>
    obtain ⟨y, hy, hsame⟩ := told_of_old? ht hx
    exact .replacing hy (by rw [hsame, hold])
  | shut h => exact .shut (hs.isClosed_weave h hstep)

theorem Unnoted.act (h : Unnoted origin base s) (hs : s.Orderly) (hrest : s.IsSettled) (a : Act) :
    Unnoted origin base (s.act a) := by
  cases h with
  | still h => exact .still (h.other (.act hrest) hrest.no_turn)
  | replacing hx hold =>
    rw [hs.old?_of_isSettled hrest hx] at hold
    cases hold
  | shut h => exact .shut (isClosed_act h a)

/-- A read that waits has noted so, unless the ring is closed. -/
theorem Unnoted.isClosed_of_waiting {woken : Bool} (h : Unnoted origin base s) (hs : s.Orderly)
    (hbase : Rests origin base) (hi : s.tasks[i]? = some (.read r)) (hp : r.phase = .waiting last woken) :
    s.ring.isClosed = true := by
  cases h with
  | still h =>
    have hunder : ∀ x ∈ base.tasks, x.isUnderWay = false := fun x hx => by simp [Task.isUnderWay, hbase.idle x hx]
    obtain ⟨u, hu⟩ := h.underWay hbase.arises.orderly hunder hi (Task.isUnderWay_read.mpr (by simp [hp, Task.isOver]))
    cases hu
  | @replacing x hx hold =>
    -- Whoever waits for a feed to stop would have the turn.
    obtain ⟨k, hk⟩ := Option.isSome_iff_exists.mp hold
    obtain ⟨j, hj⟩ := List.mem_iff_getElem?.mp hx
    obtain ⟨hgo, hbegun⟩ := Task.begun_of_old? hk
    obtain rfl := Option.some.inj ((hs.lined.head hj hgo hbegun).symm.trans (hs.lined.head_of_waiting hi hp))
    obtain rfl := Option.some.inj (hj.symm.trans hi)
    simp [Task.old?, hp] at hk
  | shut h => exact h

/-! ### Steps -/

/-- But for a task that is over `t` is `s`, and they show the same, unless what became of the last turn since `base` is
    not noted yet. -/
structure Mirrors (origin : Origin σ) (base : Session σ) (n : Nat) (x : Task) (t s : Session σ) : Prop
    extends Beside n x (Unnoted origin base s) t s where
  arises : Arises origin s
  rests : Rests origin base

variable {t' s' : Session σ}

theorem Mirrors.step (h : Mirrors origin base n x t s) (hstep : Weave origin may s s')
    (hgoes : Beside n x (Unnoted origin base s') t' s') : Mirrors origin base n x t' s' :=
  ⟨hgoes, h.arises.weave hstep, h.rests⟩

/-- The turn of a read on an open ring notes what it comes to, unless the read now waits for a feed to stop. -/
theorem Mirrors.turn_read (h : Mirrors origin base n x t s) (hi : s.tasks[i]? = some (.read r))
    (hready : s.taskReady i = true) (hlive : s.ring.isClosed = false) :
    Beside n x (Unnoted origin base (s.turn origin i)) (t.turn origin (past n i)) (s.turn origin i) := by
  have hs := h.arises.orderly
  have hopen : s.closed = false := by
    cases hc : s.closed with
    | false => rfl
    | true => cases (hs.shut hc).symm.trans hlive
  have hgoes : Beside n x _ (t.turn origin (past n i)) (s.turn origin i) := h.toBeside.turn i
  have hsame : Beside n x False (t.turn origin (past n i)) (s.turn origin i) →
      Beside n x (Unnoted origin base (s.turn origin i)) (t.turn origin (past n i)) (s.turn origin i) :=
    fun h => h.mono False.elim
  simp only [Session.turn, h.tasks.getElem?, hi] at hgoes hsame ⊢
  obtain ⟨hlen, hin⟩ := hs.asked r (List.mem_of_getElem? hi) (isOver_eq_false_of_taskReady hi hready)
  cases hp : r.phase with
  | queued =>
    cases hstale : s.isStale r with
    | true =>
      cases hslot : s.slot with
      | some old =>
        refine hgoes.mono fun _ => .replacing (x := .read { r with phase := .replacing old }) ?_ rfl
        simp only [Session.readStep, hp, hopen, hstale, hslot, Bool.false_eq_true, if_false, if_true]
        exact List.mem_of_getElem? (List.getElem?_set_self (List.getElem?_eq_some_iff.mp hi).1)
      | none =>
        refine hsame ?_
        simp only [Session.readStep, hp, h.closed, hopen, h.isStale, hstale, h.slot, hslot, Bool.false_eq_true, if_false,
          if_true]
        exact h.restart_open hopen hlive
    | false =>
      refine hsame ?_
      simp only [Session.readStep, hp, h.closed, hopen, h.isStale, hstale, h.lastWanted, Bool.false_eq_true, if_false]
      refine h.look_open hs.ring hopen hlive (start_le_of_not_stale hstale) (le_lastWanted s r) fun stop hend => ?_
      obtain ⟨-, -, hstop, hle⟩ := Ring.stop_of_ended hend
      exact absurd (lastWanted_lt_stop hlen hin hstale hstop) (Nat.not_lt.mpr hle)
  | replacing old =>
    have hstopped : s.hasStopped old = true := by simpa only [taskReady, hi, hp] using hready
    refine hsame ?_
    simp only [Session.readStep, hp, h.hasStopped, hstopped, if_true]
    exact h.restart_open hopen hlive
  | waiting last woken =>
    rcases h.mark with hmark | ⟨hno, -⟩
    · exact hsame ((h.of_mark hmark).readStep i r)
    · cases (hno.isClosed_of_waiting hs h.rests hi hp).symm.trans hlive
  | done result => simp [taskReady, hi, hp] at hready
  | abandoned => simp [taskReady, hi, hp] at hready

theorem Mirrors.move {m : Mover} (h : Mirrors origin base n x t s) (hm : s.CanMove m) :
    Mirrors origin base n x (t.move origin (m.past n)) (s.move origin m) := by
  have hs := h.arises.orderly
  have hstep : Weave origin Leisurely s (s.move origin m) := .move hm
  have hgoes : Beside n x _ (t.move origin (m.past n)) (s.move origin m) := h.toBeside.move m
  refine h.step hstep ?_
  cases m with
  | feed k =>
    obtain ⟨f, hk, hr⟩ := exists_of_feedReady hm
    have ht : Reringed s (s.feedStep origin k) _ := reringed_feedStep hs.ring hk hr
    exact hgoes.mono fun hno => hno.told hs hstep ht.tasks
  | stream => exact hgoes.mono fun _ => .shut (isClosed_expire s)
  | task i =>
    obtain ⟨y, hi, -⟩ := (hs.lined.mem_iff i).mp (List.mem_of_mem_head? hm.1)
    cases hshut : s.ring.isClosed with
    | true => exact hgoes.mono fun _ => .shut (hs.isClosed_weave hshut hstep)
    | false =>
      cases y with
      | read r => exact h.turn_read hi hm.2 hshut
      | close c =>
        obtain ⟨s₀, hnew, hweaves⟩ := h.arises
        cases (isClosed_of_closing hnew hweaves c (List.mem_of_getElem? hi)).symm.trans hshut

theorem Mirrors.wait (h : Mirrors origin base n x t s) {now : Nat} (hle : s.now ≤ now) :
    Mirrors origin base n x { t with now } { s with now } := by
  have hstep : Weave origin Leisurely s { s with now } := .wait hle
  have hsame : s.tasks = s.tasks.map fun y => if false then y.wake else y := by simp
  exact h.step hstep ((h.toBeside.wait now).mono fun hno => hno.told h.arises.orderly hstep hsame)

theorem Mirrors.act (h : Mirrors origin base n x t s) (hrest : s.IsSettled) (a : Act) :
    Mirrors origin base n x (t.act (a.past n)) (s.act a) := by
  have hstep : Weave origin Leisurely s (s.act a) := .act hrest
  exact h.step hstep ((h.toBeside.act a).mono fun hno => hno.act h.arises.orderly hrest a)

/-! ### Runs -/

theorem Mirrors.happen {limit : Option Nat} {e : Event} (h : Mirrors origin base n x t s) (he : s.event? limit = some e) :
    Mirrors origin base n x (t.happen origin (e.past n)) (s.happen origin e) := by
  cases occurs he with
  | step hm => exact h.move (canMove_of_next? hm)
  | wait _ hahead => exact h.wait (Nat.le_of_lt hahead)

theorem Mirrors.run {limit : Option Nat} {enough enough' : Session σ → Bool} (h : Mirrors origin base n x t s)
    (henough : ∀ u v, Mirrors origin base n x u v → enough' u = enough v) :
    Mirrors origin base n x (t.run origin limit enough') (s.run origin limit enough) := by
  fun_induction Session.run origin limit enough s generalizing t with
  | case1 s hdone =>
    rw [run_of_enough ((henough t s h).trans hdone)]
    exact h
  | case2 s hmore hnone =>
    have hnone' : t.event? limit = none := by rw [h.event?, hnone, Option.map_none]
    rw [run_of_event?_eq_none hnone']
    exact h
  | case3 s hmore e he ih =>
    have hmore' : enough' t = false := (henough t s h).trans (by simpa using hmore)
    have he' : t.event? limit = some (e.past n) := by rw [h.event?, he, Option.map_some]
    rw [run_of_event? hmore' he']
    exact ih (h.happen he)

theorem Mirrors.settle (h : Mirrors origin base n x t s) :
    Mirrors origin base n x (t.settle origin) (s.settle origin) := by
  rw [Session.settle, Session.settle, h.now]
  exact h.run fun _ _ _ => rfl

theorem Mirrors.passUntil (h : Mirrors origin base n x t s) (time : Nat) :
    Mirrors origin base n x (t.passUntil origin time) (s.passUntil origin time) := by
  unfold Session.passUntil
  rw [h.now]
  exact (h.run fun _ _ _ => rfl).wait (now_run origin time (fun _ => false) s).2

theorem Beside.isOver (h : Beside n x apart t s) (i : Nat) : t.isOver (past n i) = s.isOver i := by
  rw [Session.isOver, Session.isOver, h.tasks.getElem?]

theorem Beside.result? (h : Beside n x apart t s) (i : Nat) : t.result? (past n i) = s.result? i := by
  rw [Session.result?, Session.result?, h.tasks.getElem?]

theorem Mirrors.await (h : Mirrors origin base n x t s) (i : Nat) :
    Mirrors origin base n x (t.await origin (past n i)) (s.await origin i) :=
  (h.run fun _ _ hv => hv.isOver i).settle

def Command.past (n : Nat) : Command → Command
  | .join i => .join (Session.past n i)
  | .abandon i => .abandon (Session.past n i)
  | c => c

/-- Whatever the owner asks for, it gets the same. -/
theorem Mirrors.perform (h : Mirrors origin base n x t s) (hrest : s.IsSettled) (c : Command) :
    Mirrors origin base n x (t.perform origin (c.past n)) (s.perform origin c) := by
  refine Mirrors.settle ?_
  cases c with
  | read len position timeout =>
    have hstart : Mirrors origin base n x (t.start len position timeout) (s.start len position timeout) :=
      h.act hrest (.start len position timeout)
    simp only [Command.past, carryOut, Session.read, h.tasks.length]
    exact hstart.await _
  | start len position timeout => exact h.act hrest (.start len position timeout)
  | join i => exact h.await i
  | abandon i => exact h.act hrest (.abandon i)
  | close =>
    have hstart : Mirrors origin base n x t.startClose s.startClose := h.act hrest .close
    simp only [Command.past, carryOut, Session.close, h.tasks.length]
    exact hstart.await _
  | letGo => exact h.act hrest .letGo
  | pass millis =>
    simp only [Command.past, carryOut, h.now]
    exact h.passUntil _

theorem Mirrors.performAll (h : Mirrors origin base n x t s) (hrest : s.IsSettled) (cs : List Command) :
    Mirrors origin base n x (t.performAll origin (cs.map (Command.past n))) (s.performAll origin cs) := by
  induction cs generalizing t s with
  | nil => exact h
  | cons c cs ih => exact ih (h.perform hrest c) (isSettled_perform origin c s)

/-- In a settled session that somebody holds, both show the same, or no read has taken its turn. -/
theorem Mirrors.lifecycle (h : Mirrors origin base n x t s) (hrest : s.IsSettled) (hheld : s.IsHeld) :
    t.lifecycle = s.lifecycle ∨
      t.lifecycle = .filling ∧ s.lifecycle = .ready ∧ LastTurn origin Leisurely base none s := by
  have hsame : t.mark = s.mark → t.lifecycle = s.lifecycle := by
    intro hmark
    rw [Session.lifecycle, Session.lifecycle, h.closed, hmark]
  cases hc : s.closed with
  | true =>
    left
    rw [lifecycle_eq_closed.mpr hc, lifecycle_eq_closed.mpr (h.closed.trans hc)]
  | false =>
    rcases h.mark with hmark | ⟨hno, hfilling, hready⟩
    · exact Or.inl (hsame hmark)
    · refine Or.inr ⟨(lifecycle_of_open (h.closed.trans hc)).2.1.mpr hfilling, (lifecycle_of_open hc).2.2.mpr hready, ?_⟩
      cases hno with
      | still h => exact h
      | replacing hx hold =>
        rw [h.arises.orderly.old?_of_isSettled hrest hx] at hold
        cases hold
      | shut hshut =>
        obtain ⟨s₀, hnew, hweaves⟩ := h.arises
        cases (hheld.closed hnew hweaves hrest hshut).symm.trans hc

end Session
end ReadAhead
