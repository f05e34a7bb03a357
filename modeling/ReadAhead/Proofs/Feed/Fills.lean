import ReadAhead.Feed.Effort
import ReadAhead.Proofs.Feed.Step
import ReadAhead.Proofs.Source.Terms

/-! A feed that fills a ring from a source that honours its terms. Wherever the feed is between two steps,
    its source stands as far on as the write position and the bytes it still holds say (`Promised`), the
    window holds bytes within the terms only, and the feed has counted what it put there (`Brings`). On an open
    ring that nobody else writes to, the ring is moreover marked finished just when the feed has stopped,
    which it does where the terms let the data end or the source fail (`Fills`). A step keeps all of it
    (`brings_advance`, `fills_advance`). -/

namespace ReadAhead
namespace Feed
variable {σ : Type} {origin : Origin σ} {terms : Origin.Terms} {limit now : Nat} {ring : Ring} {f : Feed σ}

/-- What is promised of the answers still to come to a feed that has put all before `position`. -/
def Phase.Promised (origin : Origin σ) (terms : Origin.Terms) (limit position : Nat) (source : σ) : Phase → Prop
  | .asking => origin.Honours terms limit position source
  | .awaiting _ answer => terms.Allow position answer fun p => origin.Honours terms limit p source
  | .blocked rest _ _ => terms.Allow position (.ok rest) fun p => origin.Honours terms limit p source
  | .stopped => True

/-- Where a feed has stopped, the terms let the data end, or they let the source fail with what the feed
    has kept unless it says that someone stopped the work. -/
def Ended (terms : Origin.Terms) (position : Nat) (failure : Option Failure) : Prop :=
  (terms.ends position ∧ failure = none) ∨
    ∃ cause, terms.fails position cause ∧ failure = (some cause).filter (!·.isShutdown)

/-- The feed brings the bytes of the ring from position `base` on, within the terms. -/
structure Brings (origin : Origin σ) (terms : Origin.Terms) (base : Nat) (f : Feed σ) (ring : Ring) : Prop where
  written : ring.writePosition = base + f.copied
  window : ring.isClosed = false →
    ∀ p, ring.start ≤ p → p < ring.writePosition → ∃ b, ring.byte? p = some b ∧ terms.byte p b
  phase : f.phase.Promised origin terms (min f.scratch ring.capacity) ring.writePosition f.source

/-- The feed fills the ring, and both are within the terms. -/
structure Fills (origin : Origin σ) (terms : Origin.Terms) (f : Feed σ) (ring : Ring) : Prop where
  written : ring.writePosition = f.start + f.copied
  window : ∀ p, ring.start ≤ p → p < ring.writePosition → ∃ b, ring.byte? p = some b ∧ terms.byte p b
  phase : f.phase.Promised origin terms (min f.scratch ring.capacity) ring.writePosition f.source
  stop : ring.stop = if f.isStopped then some ring.writePosition else none
  ended : f.isStopped = true → Ended terms ring.writePosition f.failure

theorem Fills.brings (hf : f.Fills origin terms ring) : f.Brings origin terms f.start ring :=
  ⟨hf.written, fun _ => hf.window, hf.phase⟩

theorem Gets.allowed {answer : Except Failure ByteArray} {next : σ} {position : Nat}
    (h : f.Gets origin limit answer next) (hp : f.phase.Promised origin terms limit position f.source) :
    terms.Allow position answer fun p => origin.Honours terms limit p next := by
  cases h with
  | asked hphase hd =>
    rw [hphase] at hp
    exact hp.read
  | waited hphase =>
    rw [hphase] at hp
    exact hp
  | left hphase =>
    rw [hphase] at hp
    exact hp

theorem promised_afterPut {rest : ByteArray} {n position : Nat} {next : σ} (hn : n ≤ rest.size) (hpos : 0 < rest.size)
    (h : terms.Allow position (.ok rest) fun p => origin.Honours terms limit p next) :
    (afterPut rest n).Promised origin terms limit (position + n) next := by
  unfold afterPut
  split
  · exact h.extract ‹_›
  · have hall : n = rest.size := by omega
    exact hall ▸ ((Origin.Terms.allow_bytes hpos).mp h).2

/-- Bytes within the terms, put behind the window, leave a window within the terms. -/
theorem window_put {data : ByteArray} (hring : ring.Sound) (hopen : ring.isClosed = false)
    (hroom : ring.len + data.size ≤ ring.capacity)
    (hwindow : ∀ p, ring.start ≤ p → p < ring.writePosition → ∃ b, ring.byte? p = some b ∧ terms.byte p b)
    (hbytes : ∀ i b, data.data[i]? = some b → terms.byte (ring.writePosition + i) b) :
    ∀ p, (ring.put data).start ≤ p → p < (ring.put data).writePosition →
      ∃ b, (ring.put data).byte? p = some b ∧ terms.byte p b := by
  intro p hlow hhigh
  rw [Ring.start_put] at hlow
  rw [Ring.writePosition_put hroom] at hhigh
  by_cases hold : p < ring.writePosition
  · rw [Ring.byte?_put_old hring hroom hlow hold]
    exact hwindow p hlow hold
  · obtain ⟨i, rfl⟩ : ∃ i, p = ring.writePosition + i := ⟨p - ring.writePosition, by omega⟩
    have hi : i < data.data.size := by
      rw [ByteArray.size_data]
      omega
    rw [Ring.byte?_put_new hring hroom hopen (by omega), Array.getElem?_eq_getElem hi]
    exact ⟨_, rfl, hbytes i _ (Array.getElem?_eq_getElem hi)⟩

/-- A feed of which one step was told, with the ring it left. -/
abbrev After.Fills (origin : Origin σ) (terms : Origin.Terms) (a : After σ) : Prop :=
  Feed.Fills origin terms a.feed a.ring

abbrev After.Brings (origin : Origin σ) (terms : Origin.Terms) (base : Nat) (a : After σ) : Prop :=
  Feed.Brings origin terms base a.feed a.ring

/-- Whoever marks the ring finished, the feed goes on to bring what it brought. -/
theorem Brings.finish {base : Nat} (hf : f.Brings origin terms base ring) :
    f.Brings origin terms base ring.finish.ring := by
  cases hopen : ring.isClosed with
  | true =>
    rw [Ring.finish_of_closed hopen]
    exact hf
  | false =>
    rw [Ring.finish_of_open hopen]
    exact ⟨hf.written, hf.window, hf.phase⟩

theorem brings_halt {base : Nat} (hf : f.Brings origin terms base ring) (next : σ) (cause : Option Failure) :
    ({ f with source := next }.halt ring false cause).Brings origin terms base :=
  ⟨hf.finish.written, hf.finish.window, trivial⟩

theorem brings_take {base : Nat} (hring : ring.Sound) (hf : f.Brings origin terms base ring)
    {answer : Except Failure ByteArray} {next : σ}
    (hallowed : terms.Allow ring.writePosition answer fun p =>
      origin.Honours terms (min f.scratch ring.capacity) p next) :
    ({ f with source := next }.take ring answer).Brings origin terms base := by
  rcases take_cases hring { f with source := next } answer with
    ⟨cause, -, he⟩ | ⟨rest, left, rfl, -, -, he⟩ | ⟨rest, n, rfl, hopen, hpos, hn, he⟩
  · rw [he]
    exact brings_halt hf next cause
  · rw [he]
    exact ⟨hf.written, hf.window, hallowed⟩
  · have hfree := Ring.free_of_open hopen
    have hsize : (rest.extract 0 n).size = n := by
      rw [ByteArray.size_extract]
      omega
    have hroom : ring.len + (rest.extract 0 n).size ≤ ring.capacity := by
      have := hring.room
      omega
    have hwritten := Ring.writePosition_put hroom
    rw [he]
    refine ⟨?_, fun _ => ?_, ?_⟩
    · have hold := hf.written
      rw [hwritten, hsize]
      simp only
      omega
    · refine window_put hring hopen hroom (hf.window hopen) fun i b hb => ?_
      rw [ByteArray.data_extract, Array.getElem?_extract] at hb
      split at hb
      · rw [Nat.zero_add] at hb
        exact ((Origin.Terms.allow_bytes (by omega)).mp hallowed).1 i b hb
      · cases hb
    · rw [hwritten, hsize]
      exact promised_afterPut (by omega) (by omega) hallowed

theorem brings_advance {base : Nat} (hring : ring.Sound) (hf : f.Brings origin terms base ring)
    (hr : f.isReady now = true) : (f.advance origin now ring).Brings origin terms base := by
  rcases advance_cases origin ring hr with ⟨-, he⟩ | ⟨-, hp, -, he⟩ | ⟨-, answer, next, hgets, he⟩
  · rw [he]
    exact brings_halt hf f.source _
  · have hpromised := hf.phase
    rw [hp] at hpromised
    rw [he]
    exact ⟨hf.written, hf.window, hpromised.read⟩
  · rw [he]
    exact brings_take hring hf (hgets.allowed hf.phase)

/-- On an answer within the terms, the feed either goes on and leaves the mark of the ring as it is, or stops
    where the terms allow it. -/
theorem ended_take (hring : ring.Sound) (hopen : ring.isClosed = false) (f : Feed σ)
    {answer : Except Failure ByteArray} {onward : Nat → Prop} (hallowed : terms.Allow ring.writePosition answer onward) :
    ((f.take ring answer).feed.isStopped = false ∧ (f.take ring answer).ring.stop = ring.stop) ∨
      (f.take ring answer).feed.isStopped = true ∧
        (f.take ring answer).ring.stop = some (f.take ring answer).ring.writePosition ∧
        Ended terms (f.take ring answer).ring.writePosition (f.take ring answer).feed.failure := by
  rcases take_cases hring f answer with ⟨cause, hends, he⟩ | ⟨rest, left, -, -, -, he⟩ | ⟨rest, n, -, -, -, -, he⟩
  · right
    rw [he]
    simp only [halt, Ring.finish_of_open hopen]
    refine ⟨rfl, rfl, ?_⟩
    -- Of the reasons to stop, only a shut ring is none of the terms, and this one is open.
    cases hends with
    | failed cause => exact Or.inr ⟨cause, hallowed, rfl⟩
    | spent hz => exact Or.inl ⟨(Origin.Terms.allow_end hz).mp hallowed, rfl⟩
    | shut hclosed =>
      rw [hopen] at hclosed
      cases hclosed
  · rw [he]
    exact Or.inl ⟨rfl, rfl⟩
  · rw [he]
    exact Or.inl ⟨isStopped_eq_false (isStopped_afterPut rest n), rfl⟩

theorem fills_take (hring : ring.Sound) (hopen : ring.isClosed = false) (hf : f.Fills origin terms ring)
    (hrun : f.isStopped = false) {answer : Except Failure ByteArray} {next : σ}
    (hallowed : terms.Allow ring.writePosition answer fun p =>
      origin.Honours terms (min f.scratch ring.capacity) p next) :
    ({ f with source := next }.take ring answer).Fills origin terms := by
  have hbrings := brings_take hring hf.brings hallowed
  have hworked := worked_take hring { f with source := next } answer
  have hsame := same_take hring { f with source := next } hrun answer
  have hstop : ring.stop = none := by rw [hf.stop, hrun]; rfl
  have hended := ended_take hring hopen { f with source := next } hallowed
  generalize { f with source := next }.take ring answer = a at hbrings hworked hsame hended
  have hwritten : a.ring.writePosition = a.feed.start + a.feed.copied := by
    rw [hsame.start]
    exact hbrings.written
  rcases hended with ⟨hgo, hmark⟩ | ⟨hdone, hmark, hterms⟩
  · refine ⟨hwritten, hbrings.window (hworked.isClosed.trans hopen), hbrings.phase, ?_, fun h => ?_⟩
    · rw [hgo, hmark, hstop]
      rfl
    · rw [hgo] at h
      cases h
  · refine ⟨hwritten, hbrings.window (hworked.isClosed.trans hopen), hbrings.phase, ?_, fun _ => hterms⟩
    rw [hdone, hmark]
    rfl

theorem fills_advance (hring : ring.Sound) (hopen : ring.isClosed = false) (hf : f.Fills origin terms ring)
    (hgo : f.cancelled = false) (hr : f.isReady now = true) : (f.advance origin now ring).Fills origin terms := by
  have hrun := isStopped_of_isReady hr
  have hstop : ring.stop = none := by rw [hf.stop, hrun]; rfl
  rcases advance_cases origin ring hr with ⟨hc, -⟩ | ⟨-, hp, -, he⟩ | ⟨-, answer, next, hgets, he⟩
  · rw [hgo] at hc
    cases hc
  · have hpromised := hf.phase
    rw [hp] at hpromised
    rw [he]
    exact ⟨hf.written, hf.window, hpromised.read, hstop, fun h => nomatch h⟩
  · rw [he]
    exact fills_take hring hopen hf hrun (hgets.allowed hf.phase)

theorem fills_fresh {source : σ} {start scratch : Nat} (hstart : ring.start = start) (hwrite : ring.writePosition = start)
    (hstop : ring.stop = none) (h : origin.Honours terms (min scratch ring.capacity) start source) :
    (fresh source start scratch).Fills origin terms ring :=
  ⟨by rw [hwrite]; rfl, fun p hlow hhigh => by omega, hwrite ▸ h, by rw [hstop]; rfl, fun h => nomatch h⟩

theorem Brings.wake {base : Nat} (hf : f.Brings origin terms base ring) : f.wake.Brings origin terms base ring := by
  rcases f with ⟨source, start, scratch, phase, copied, failure, closes, cancelled⟩
  cases phase <;> exact ⟨hf.written, hf.window, hf.phase⟩

theorem Fills.wake (hf : f.Fills origin terms ring) : f.wake.Fills origin terms ring := by
  rcases f with ⟨source, start, scratch, phase, copied, failure, closes, cancelled⟩
  cases phase with
  | blocked rest left woken => exact ⟨hf.written, hf.window, hf.phase, hf.stop, hf.ended⟩
  | _ => exact hf

/-- A read takes from the window and leaves the rest to the feed as it is. -/
theorem Brings.taken {base n position : Nat} {bytes : ByteArray} {left : Ring} (hf : f.Brings origin terms base ring)
    (ht : Ring.Taken ring n position bytes left) (hlow : ring.start ≤ position) : f.Brings origin terms base left := by
  have hstart := ht.start
  refine ⟨?_, fun hopen p hp hhigh => ?_, ?_⟩
  · rw [ht.writePosition]
    exact hf.written
  · rw [ht.writePosition] at hhigh
    rw [ht.byte?_eq]
    exact hf.window (ht.isClosed_eq ▸ hopen) p (by omega) hhigh
  · rw [ht.capacity, ht.writePosition]
    exact hf.phase

theorem Fills.taken {n position : Nat} {bytes : ByteArray} {left : Ring} (hf : f.Fills origin terms ring)
    (ht : Ring.Taken ring n position bytes left) (hlow : ring.start ≤ position) : f.Fills origin terms left := by
  have hstart := ht.start
  refine ⟨(hf.brings.taken ht hlow).written, fun p hp hhigh => ?_, (hf.brings.taken ht hlow).phase, ?_, ?_⟩
  · rw [ht.writePosition] at hhigh
    rw [ht.byte?_eq]
    exact hf.window p (by omega) hhigh
  · rw [ht.stop, ht.writePosition]
    exact hf.stop
  · rw [ht.writePosition]
    exact hf.ended

end Feed
end ReadAhead
