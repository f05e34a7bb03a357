import ReadAhead.Proofs.Feed.Fills
import ReadAhead.Proofs.Source.Given
import ReadAhead.Proofs.Supply.Step

/-! A feed copies its source byte by byte. As long as nobody else writes to the ring, empties it or marks it
    finished, the byte at each position is the one that the source gives under the number of that position,
    counted from where the ring began: a chunk that is put there in several pieces goes on where it stopped, and
    reads that move the window meanwhile change nothing about it. -/

namespace ReadAhead

/-- The operations of those who read a ring, look at it, or close it. -/
def Ring.Op.IsReading : Ring.Op → Prop
  | .append _ | .reset _ | .finish => False
  | .readAt _ _ | .close | .isResident _ | .availability _ | .look => True

namespace Feed
variable {σ : Type} {origin : Origin σ} {terms : Origin.Terms} {base : Nat} {ring : Ring} {f : Feed σ}

theorem Brings.close (hf : f.Brings origin terms base ring) : f.Brings origin terms base ring.close.ring := by
  have hclosed := Ring.isClosed_close ring
  refine ⟨?_, fun hopen => absurd hclosed (by simp [hopen]), ?_⟩
  · rw [Ring.writePosition_close]
    exact hf.written
  · rw [Ring.capacity_close, Ring.writePosition_close]
    exact hf.phase

theorem Brings.told (hf : f.Brings origin terms base ring) (woke : Bool) :
    (if woke then f.wake else f).Brings origin terms base ring := by
  cases woke with
  | true => exact hf.wake
  | false => exact hf

end Feed

namespace Supply
variable {σ : Type} {origin : Origin σ} {terms : Origin.Terms} {source : σ} {storage : ByteArray}
  {base start scratch q : Nat} {b : UInt8} {s s₀ t : Supply σ}

/-- The feed has brought all bytes of the ring from position `base` on. -/
structure Copies (origin : Origin σ) (terms : Origin.Terms) (base : Nat) (s : Supply σ) : Prop where
  sound : s.ring.Sound
  low : base ≤ s.ring.start
  brings : s.feed.Brings origin terms base s.ring

theorem copies_fresh (h : origin.Honours terms (min scratch storage.size) base source) :
    Copies origin terms base (fresh (Ring.onStorage storage base) source start scratch) := by
  have hstart : (Ring.onStorage storage base).start = base := by simp [Ring.onStorage, Ring.start]
  have hwrite : (Ring.onStorage storage base).writePosition = base := by simp [Ring.onStorage, Ring.writePosition]
  refine ⟨Ring.sound_onStorage storage base, Nat.le_of_eq hstart.symm, hwrite, fun _ p hlow hhigh => ?_, ?_⟩
  · simp only [fresh] at hlow hhigh
    omega
  · simp only [fresh, hwrite]
    exact h

theorem Copies.work {op : Ring.Op} (h : Copies origin terms base s) (hop : op.IsReading) :
    Copies origin terms base (s.onRing fun r => r.work op).2 := by
  have hsound := Ring.sound_work h.sound op
  cases op with
  | append data => exact hop.elim
  | reset position => exact hop.elim
  | finish => exact hop.elim
  | readAt n position =>
    rcases Ring.readAt_cases h.sound n position with he | ⟨hres, bytes, -, ht⟩
    · refine ⟨hsound, ?_, Feed.Brings.told ?_ _⟩
      · simp only [onRing, Ring.work, he]
        exact h.low
      · simp only [onRing, Ring.work, he]
        exact h.brings
    · -- The window loses bytes at its low end, and keeps those above.
      obtain ⟨-, hlow, -⟩ := (Ring.isResident_iff h.sound).mp hres
      have hstart := ht.start
      have hbase := h.low
      refine ⟨hsound, ?_, (h.brings.taken ht hlow).told _⟩
      simp only [onRing, Ring.work]
      omega
  | close =>
    refine ⟨hsound, ?_, h.brings.close.told _⟩
    simp only [onRing, Ring.work, Ring.start_close]
    exact h.low
  | isResident position => exact h
  | availability position => exact h
  | look => exact h

theorem Copies.step (h : Copies origin terms base s) (hstep : Step origin Ring.Op.IsReading s t) :
    Copies origin terms base t := by
  cases hstep with
  | move hready =>
    have hworked := Feed.worked_advance h.sound origin hready
    exact ⟨hworked.sound, Nat.le_trans h.low (Nat.le_of_eq hworked.start.symm), Feed.brings_advance h.sound h.brings hready⟩
  | wait => exact ⟨h.sound, h.low, h.brings⟩
  | work hop => exact h.work hop
  | cancel => exact ⟨h.sound, h.low, h.brings.written, h.brings.window, h.brings.phase⟩

theorem Copies.reaches (h : Copies origin terms base s) (hreach : Reaches origin Ring.Op.IsReading s t) :
    Copies origin terms base t := by
  induction hreach with
  | refl => exact h
  | tail _ hstep ih => exact ih.step hstep

theorem Copies.resident (h : Copies origin terms base s) (hres : s.ring.isResident q = true) :
    base ≤ q ∧ ∃ b, s.ring.byte? q = some b ∧ terms.byte q b := by
  obtain ⟨hopen, hlow, hhigh⟩ := (Ring.isResident_iff h.sound).mp hres
  exact ⟨Nat.le_trans h.low hlow, h.brings.window hopen q hlow hhigh⟩

/-- The bytes that a read hands out are those of the window at their positions. -/
theorem Copies.handed {n position i : Nat} {bytes : ByteArray} (h : Copies origin terms base s)
    (hanswer : (s.ring.readAt n position).answer = .ok bytes) (hi : i < bytes.size) :
    base ≤ position + i ∧ ∃ b, bytes.data[i]? = some b ∧ terms.byte (position + i) b := by
  cases hres : s.ring.isResident position with
  | false =>
    rw [Ring.readAt_of_not_resident hres] at hanswer
    cases hanswer
  | true =>
    obtain ⟨taken, left, he, ht⟩ := Ring.readAt_of_resident h.sound hres n
    rw [he] at hanswer
    obtain rfl := Except.ok.inj hanswer
    obtain ⟨hopen, hlow, hhigh⟩ := (Ring.isResident_iff h.sound).mp hres
    have hsize := ht.size
    have hthere : s.ring.isResident (position + i) = true :=
      (Ring.isResident_iff h.sound).mpr ⟨hopen, by omega, by omega⟩
    obtain ⟨hbase, b, hb, hbyte⟩ := h.resident hthere
    exact ⟨hbase, b, by rw [ht.byte i hi, hb], hbyte⟩

/-- `b` is what the source gives for position `q` of a ring that began at `base`: the byte of that number, and if
    the source reads a file from `start` on, the byte of the file that far behind `start`. -/
structure Original (origin : Origin σ) (limit base start : Nat) (source : σ) (q : Nat) (b : UInt8) : Prop where
  low : base ≤ q
  given : origin.Gives limit source (q - base) b
  file : ∀ content, origin.Honours (.file content) limit start source → b = content (start + (q - base))

theorem original_of_gives {limit : Nat} (hlow : base ≤ q) (h : origin.Gives limit source (q - base) b) :
    Original origin limit base start source q b :=
  ⟨hlow, h, fun _ hhonours => h.allowed hhonours⟩

/-- Let others read the ring, look at it and close it, let time pass and let the feed be told to stop, at any
    moment between the steps of the feed. Then the ring has been written just as far as the feed has counted;
    every byte in the window is the one that the source gives for its position; and so is every byte that a
    read gets. -/
theorem copies_in_order (hreach : Reaches origin Ring.Op.IsReading (fresh (Ring.onStorage storage base) source start scratch) t) :
    t.ring.writePosition = base + t.feed.copied ∧
      (∀ q, t.ring.isResident q = true →
        ∃ b, t.ring.byte? q = some b ∧ Original origin (min scratch storage.size) base start source q b) ∧
      ∀ n position bytes, (t.ring.readAt n position).answer = .ok bytes → ∀ i < bytes.size,
        ∃ b, bytes.data[i]? = some b ∧ Original origin (min scratch storage.size) base start source (position + i) b := by
  have hcopies := (copies_fresh (Origin.honours_given origin (min scratch storage.size) base source)).reaches hreach
  refine ⟨hcopies.brings.written, fun q hres => ?_, fun n position bytes hanswer i hi => ?_⟩
  · obtain ⟨hlow, b, hb, hgives⟩ := hcopies.resident hres
    exact ⟨b, hb, original_of_gives hlow hgives⟩
  · obtain ⟨hlow, b, hb, hgives⟩ := hcopies.handed hanswer hi
    exact ⟨b, hb, original_of_gives hlow hgives⟩

/-- A ring of one byte that begins at position seven, and a source that counts from zero. The first byte was read
    when the second came. -/
def secondByte : Supply Nat :=
  let first := (fresh (Ring.onStorage (Bytes.ofFn 1 fun _ => 9) 7) 0 0 1).happen (Origin.counting 2) .step
  ((first.onRing fun r => r.work (.readAt 1 7)).2).happen (Origin.counting 2) .step

theorem second_byte_follows :
    ∃ bytes, (secondByte.ring.readAt 1 8).answer = .ok bytes ∧ bytes.data[0]? = some 1 := by
  have hread : Ring.Op.IsReading (.readAt 1 7) := trivial
  have hreach : Reaches (Origin.counting 2) Ring.Op.IsReading
      (fresh (Ring.onStorage (Bytes.ofFn 1 fun _ => 9) 7) 0 0 1) secondByte :=
    .tail (.tail (.single (.move rfl)) (.work hread)) (.move rfl)
  obtain ⟨bytes, hanswer, hsize⟩ : ∃ bytes, (secondByte.ring.readAt 1 8).answer = .ok bytes ∧ bytes.size = 1 :=
    ⟨_, rfl, rfl⟩
  obtain ⟨-, -, hhanded⟩ := copies_in_order hreach
  obtain ⟨b, hb, horiginal⟩ := hhanded 1 8 bytes hanswer 0 (by omega)
  have hbyte := horiginal.file (fun p => UInt8.ofNat p)
    (Origin.counting_honours (fun _ _ => rfl) (fun _ _ => trivial) 0)
  refine ⟨bytes, hanswer, ?_⟩
  rw [hb, hbyte]
  rfl

end Supply
end ReadAhead
