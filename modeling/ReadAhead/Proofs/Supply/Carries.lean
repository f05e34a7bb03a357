import ReadAhead.Proofs.Feed.Carries
import ReadAhead.Proofs.Supply.Step

/-! What a feed puts into its ring while others work on it. A log of the run holds the bytes that the feed has put
    there, step by step (`Fed`), and they are those of its source in their order. A feed sleeps only on a full
    ring: whatever makes room wakes it. So when nothing can happen, a feed that has not stopped waits for its
    source with nothing in its hands, or for room where there is none (`waits_for_source_or_room`). And when it
    has stopped on no failure, cancellation or closing, it has put all that its source has (`puts_all_data`),
    unless it never asked for any (`copied_of_scratch_eq_zero`). -/

namespace ReadAhead
namespace Supply
variable {σ : Type} {origin : Origin σ} {may : Ring.Op → Prop} {limit : Nat} {source : σ} {storage : ByteArray}
  {base start scratch : Nat} {put bytes : List UInt8} {s t u : Supply σ}

/-- A run from `s` to `t` in which the feed has put `put` into the ring, each step behind what had been written
    before. -/
inductive Fed (origin : Origin σ) (may : Ring.Op → Prop) (s : Supply σ) : List UInt8 → Supply σ → Prop
  | none : Fed origin may s [] s
  | move {put bytes : List UInt8} {t : Supply σ} (h : Fed origin may s put t) (hready : t.feed.isReady t.now = true)
    (hputs : Ring.Puts t.ring (t.happen origin .step).ring bytes) :
    Fed origin may s (put ++ bytes) (t.happen origin .step)
  | wait {put : List UInt8} {t : Supply σ} {now : Nat} (h : Fed origin may s put t) (hle : t.now ≤ now) :
    Fed origin may s put { t with now }
  | work {put : List UInt8} {t : Supply σ} {op : Ring.Op} (h : Fed origin may s put t) (hop : may op) :
    Fed origin may s put (t.onRing fun r => r.work op).2
  | cancel {put : List UInt8} {t : Supply σ} (h : Fed origin may s put t) : Fed origin may s put t.cancel

/-- The feed, which was given `source`, has put these bytes; and if it sleeps, there is no room for more. -/
structure Carries (origin : Origin σ) (limit : Nat) (source : σ) (put : List UInt8) (s : Supply σ) : Prop where
  sound : s.ring.Sound
  feed : s.feed.Carries origin limit source put s.ring
  asleep : s.feed.isAsleep = true → s.ring.isClosed = false ∧ s.ring.free = 0

theorem carries_fresh : Carries origin (min scratch storage.size) source []
    (fresh (Ring.onStorage storage base) source start scratch) :=
  ⟨Ring.sound_onStorage storage base, Feed.carries_fresh rfl, fun h => (nomatch h)⟩

theorem Carries.work (h : Carries origin limit source put s) (op : Ring.Op) :
    Carries origin limit source put (s.onRing fun r => r.work op).2 := by
  have hsound := Ring.sound_work h.sound op
  have hfeed := h.feed.worked (Ring.capacity_work s.ring op) fun hclosed => Ring.isClosed_work hclosed op
  cases hwoke : (s.ring.work op).woke with
  | true =>
    refine ⟨hsound, ?_, fun hasleep => ?_⟩
    · simp only [onRing, hwoke, if_true]
      exact hfeed.wake
    · simp only [onRing, hwoke, if_true, Feed.isAsleep_wake] at hasleep
      cases hasleep
  | false =>
    -- Nobody was told, so nothing has changed.
    have hsame := Ring.work_of_not_woke op hwoke
    have hstate : (s.onRing fun r => r.work op).2 = s := by simp [onRing, hwoke, hsame]
    rw [hstate]
    exact h

theorem Carries.step (h : Carries origin limit source put s) (hfed : Fed origin may u put s) (hstep : Step origin may s t) :
    ∃ put, Fed origin may u put t ∧ Carries origin limit source put t := by
  cases hstep with
  | move hready =>
    obtain ⟨bytes, hputs, hfeed⟩ := Feed.carries_advance h.sound h.feed hready
    have hsound := (Feed.worked_advance h.sound origin hready).sound
    refine ⟨put ++ bytes, hfed.move hready hputs, hsound, hfeed, fun hasleep => ⟨?_, ?_⟩⟩
    · exact Feed.open_of_isAsleep_advance h.sound origin hready hasleep
    · exact Feed.free_of_isAsleep_advance h.sound origin hready hasleep
  | wait hle => exact ⟨put, hfed.wait hle, h.sound, h.feed, h.asleep⟩
  | @work op hop => exact ⟨put, hfed.work hop, h.work op⟩
  | cancel => exact ⟨put, hfed.cancel, h.sound, h.feed.cancel, h.asleep⟩

/-- Every run has a log, and what it says was put is what came of the source. -/
theorem fed_of_reaches (hreach : Reaches origin may (fresh (Ring.onStorage storage base) source start scratch) t) :
    ∃ put, Fed origin may (fresh (Ring.onStorage storage base) source start scratch) put t ∧
      Carries origin (min scratch storage.size) source put t := by
  induction hreach with
  | refl => exact ⟨[], .none, carries_fresh⟩
  | tail _ hstep ih =>
    obtain ⟨put, hfed, hcarries⟩ := ih
    exact hcarries.step hfed hstep

/-! ### Waiting -/

/-- What a feed that has put these bytes waits for. -/
inductive Waits (origin : Origin σ) (limit : Nat) (source : σ) (put : List UInt8) (t : Supply σ) : Prop
  /-- For an answer that is not due. All that the source gave before has been put. -/
  | source {due : Nat} {answer : Except Failure ByteArray} {x : σ} (hphase : t.feed.phase = .awaiting due answer)
    (hdue : t.now < due) (hdraws : origin.Draws limit source put x) (hdelay : 0 < (origin.read x limit).delay)
    (hanswer : (origin.read x limit).answer = answer)
  /-- For room, the ring being full. It holds what the source gave besides. -/
  | room {rest : ByteArray} {left : 0 < rest.size} (hphase : t.feed.phase = .blocked rest left false)
    (hopen : t.ring.isClosed = false) (hfull : t.ring.free = 0)
    (hdraws : origin.Draws limit source (put ++ rest.data.toList) t.feed.source)

theorem isReady_eq_false_of_event? (h : t.event? t.now = none) : t.feed.isReady t.now = false := by
  unfold event? at h
  split at h
  · cases h
  · rename_i hready
    exact Bool.eq_false_iff.mpr hready

theorem Carries.waits (h : Carries origin limit source put t) (hidle : t.feed.isReady t.now = false)
    (hrun : t.feed.isStopped = false) : t.feed.cancelled = false ∧ Waits origin limit source put t := by
  have hcarries := h.feed.phase
  cases hphase : t.feed.phase with
  | asking =>
    rw [Feed.isReady, hphase] at hidle
    cases hidle
  | awaiting due answer =>
    rw [hphase] at hcarries
    obtain ⟨x, hdraws, hdelay, hanswer, -⟩ := hcarries
    simp only [Feed.isReady, hphase, Bool.or_eq_false_iff, decide_eq_false_iff_not, Nat.not_le] at hidle
    exact ⟨hidle.1, .source hphase hidle.2 hdraws hdelay hanswer⟩
  | blocked rest left woken =>
    rw [hphase] at hcarries
    simp only [Feed.isReady, hphase, Bool.or_eq_false_iff] at hidle
    obtain ⟨hgo, rfl⟩ := hidle
    obtain ⟨hopen, hfull⟩ := h.asleep (by simp only [Feed.isAsleep, hphase, Bool.not_false])
    exact ⟨hgo, .room hphase hopen hfull hcarries⟩
  | stopped =>
    rw [Feed.isStopped_iff.mpr hphase] at hrun
    cases hrun

/-- Let others do to the ring what they like, let time pass and let the feed be told to stop, at any moment between
    its steps. When nothing can happen until time passes, a feed that has not stopped is not told to, and has put
    as many bytes as it has counted; and it waits for an answer of its source that is not due, having put all
    that came before, or for room in an open ring without any. If its source never lets it wait, the ring is
    full. -/
theorem waits_for_source_or_room
    (hreach : Reaches origin may (fresh (Ring.onStorage storage base) source start scratch) t)
    (hsettled : t.event? t.now = none) (hrun : t.feed.isStopped = false) :
    ∃ put, Fed origin may (fresh (Ring.onStorage storage base) source start scratch) put t ∧
      put.length = t.feed.copied ∧ t.feed.cancelled = false ∧
      Waits origin (min scratch storage.size) source put t ∧
      ((∀ x, (origin.read x (min scratch storage.size)).delay = 0) →
        t.ring.isClosed = false ∧ t.ring.len = t.ring.capacity) := by
  obtain ⟨put, hfed, hcarries⟩ := fed_of_reaches hreach
  obtain ⟨hgo, hwaits⟩ := hcarries.waits (isReady_eq_false_of_event? hsettled) hrun
  refine ⟨put, hfed, hcarries.feed.copied.symm, hgo, hwaits, fun hprompt => ?_⟩
  cases hwaits with
  | @source due answer x _ _ _ hdelay =>
    have hzero := hprompt x
    omega
  | room _ hopen hfull =>
    have hroom := hcarries.sound.room
    rw [Ring.free_of_open hopen] at hfull
    exact ⟨hopen, by omega⟩

/-- A ring of one byte, and a source that counts from zero. The second byte has come and finds no room. -/
def fullRing : Supply Nat :=
  ((fresh (Ring.onStorage (Bytes.ofFn 1 fun _ => 9) 7) 0 0 4).happen (Origin.counting 3) .step).happen
    (Origin.counting 3) .step

theorem second_byte_waits_for_room : fullRing.ring.len = fullRing.ring.capacity ∧ fullRing.ring.free = 0 := by
  have hreach : Reaches (Origin.counting 3) (fun _ => True)
      (fresh (Ring.onStorage (Bytes.ofFn 1 fun _ => 9) 7) 0 0 4) fullRing :=
    .tail (.single (.move rfl)) (.move rfl)
  have hprompt : ∀ x, ((Origin.counting 3).read x 1).delay = 0 := by
    intro x
    simp only [Origin.counting]
    split <;> rfl
  obtain ⟨put, -, -, -, -, hfull⟩ := waits_for_source_or_room hreach rfl rfl
  obtain ⟨hopen, hlen⟩ := hfull hprompt
  refine ⟨hlen, ?_⟩
  rw [Ring.free_of_open hopen, hlen, Nat.sub_self]

/-! ### Stopping -/

/-- A feed that has stopped, on no failure, without being told to, and with its ring open, has put all that its
    source has: the bytes that came until the source had no more. That holds whatever others did to the ring, as
    long as the feed asks for some bytes at once, the ring can hold some, and the source never fails only to say
    that someone stopped the work. -/
theorem puts_all_data (hcapacity : 0 < storage.size) (hscratch : 0 < scratch)
    (hreach : Reaches origin may (fresh (Ring.onStorage storage base) source start scratch) t)
    (hstopped : t.feed.isStopped = true) (hfailure : t.feed.failure = none) (hgo : t.feed.cancelled = false)
    (hopen : t.ring.isClosed = false)
    (hanswers : ∀ bytes x e, origin.Draws (min scratch storage.size) source bytes x →
      (origin.read x (min scratch storage.size)).answer = .error e → e.isShutdown = false) :
    ∃ put, Fed origin may (fresh (Ring.onStorage storage base) source start scratch) put t ∧
      t.feed.copied = put.length ∧ origin.Drains (min scratch storage.size) source put ∧
      ∀ data, origin.Has source data → put = data := by
  obtain ⟨put, hfed, hcarries⟩ := fed_of_reaches hreach
  obtain ⟨reason, hreason, hkept⟩ := hcarries.feed.ended hstopped
  have hdrains : origin.Drains (min scratch storage.size) source put := by
    cases reason with
    | cancelled => cases hgo.symm.trans hreason
    | drained => exact hreason
    | failed cause =>
      obtain ⟨x, hdraws, hanswer⟩ := hreason
      have hkeeps := hanswers put x cause hdraws hanswer
      have hsome : t.feed.failure = some cause := hkept.trans (Feed.Reason.failure_eq_some.mpr ⟨rfl, hkeeps⟩)
      cases hfailure.symm.trans hsome
    | shut => cases hopen.symm.trans hreason
  have hasks : 0 < min scratch storage.size := by omega
  exact ⟨put, hfed, hcarries.feed.copied, hdrains, fun data hdata => hdrains.unique (hdata _ hasks)⟩

/-- A ring that holds the whole of a file that counts from zero, after the feed has stopped. -/
def wholeFile : Supply Nat :=
  let first := (fresh (Ring.onStorage (Bytes.ofFn 2 fun _ => 9) 7) 0 0 4).happen (Origin.counting 2) .step
  (first.happen (Origin.counting 2) .step).happen (Origin.counting 2) .step

theorem two_bytes_are_all : ∃ put, Fed (Origin.counting 2) (fun _ => False)
    (fresh (Ring.onStorage (Bytes.ofFn 2 fun _ => 9) 7) 0 0 4) put wholeFile ∧ put = [0, 1] := by
  have hreach : Reaches (Origin.counting 2) (fun _ => False)
      (fresh (Ring.onStorage (Bytes.ofFn 2 fun _ => 9) 7) 0 0 4) wholeFile :=
    .tail (.tail (.single (.move rfl)) (.move rfl)) (.move rfl)
  have hanswers : ∀ bytes x e, (Origin.counting 2).Draws 2 0 bytes x →
      ((Origin.counting 2).read x 2).answer = .error e → e.isShutdown = false := by
    intro bytes x e _ hanswer
    simp only [Origin.counting] at hanswer
    split at hanswer <;> cases hanswer
  obtain ⟨put, hfed, -, -, hall⟩ :=
    puts_all_data (by decide) (by decide) hreach rfl rfl rfl rfl hanswers
  exact ⟨put, hfed, hall _ (Origin.counting_has 0 2 rfl)⟩

/-- A feed that asks for no bytes at once copies none, whatever its source has. -/
theorem copied_of_scratch_eq_zero (hreach : Reaches origin may (fresh (Ring.onStorage storage base) source start 0) t) :
    t.feed.copied = 0 := by
  obtain ⟨put, -, hcarries⟩ := fed_of_reaches hreach
  obtain ⟨rest, x, hdraws⟩ := hcarries.feed.phase.drawn
  rw [Nat.zero_min] at hdraws
  have hnone := (List.append_eq_nil_iff.mp hdraws.eq_nil).1
  rw [hcarries.feed.copied, hnone]
  rfl

/-- It takes the answer for the end of the data: of a source that has four bytes it copies none, and stops on no
    failure. -/
theorem four_bytes_are_missed :
    let s := (fresh (Ring.onStorage (Bytes.ofFn 8 fun _ => 9) 0) 0 0 0).happen (Origin.counting 4) .step
    s.feed.isStopped = true ∧ s.feed.failure = none ∧ s.feed.cancelled = false ∧ s.ring.isClosed = false ∧
      s.feed.copied = 0 ∧ (Origin.counting 4).Has 0 [0, 1, 2, 3] :=
  ⟨rfl, rfl, rfl, rfl, rfl, Origin.counting_has 0 4 rfl⟩

end Supply
end ReadAhead
