import ReadAhead.Proofs.Feed.Fills
import ReadAhead.Proofs.Ring.Words
import ReadAhead.Proofs.Source.Pattern

/-! The arithmetic of feeds and of the sources of the reference file in numbers of 64 bits, each sum and difference
    checked as those of a ring are. A feed puts nothing behind the end of its source, and has counted no more bytes than
    the ring has come to; so where that end is a number of 64 bits, nothing wraps (`advanceWord?_eq`). -/

namespace ReadAhead

theorem mapM_eq_some_map {α β : Type} {f : α → Option β} {g : α → β} {l : List α} (h : ∀ x ∈ l, f x = some (g x)) :
    l.mapM f = some (l.map g) := by
  induction l with
  | nil => rfl
  | cons x l ih =>
    have hrest := ih fun y hy => h y (List.mem_cons_of_mem x hy)
    rw [List.mapM_cons, h x List.mem_cons_self, hrest]
    rfl

/-! ### The reference file -/

namespace Pattern

def bytesWord? (start n : Nat) : Option ByteArray := do
  let bytes ← (List.range n).mapM fun i => (Word.add? start i).map byte
  some ⟨bytes.toArray⟩

theorem bytesWord?_eq {start n : Nat} (h : start + n ≤ wordBound) : bytesWord? start n = some (bytes start n) := by
  have hall : (List.range n).mapM (fun i => (Word.add? start i).map byte) =
      some ((List.range n).map fun i => byte (start + i)) := by
    refine mapM_eq_some_map fun i hi => ?_
    have hlt := List.mem_range.mp hi
    have hsum : start + i < wordBound := by omega
    rw [Word.add?_eq hsum, Option.map_some]
  rw [bytesWord?, hall, Option.bind_eq_bind, Option.bind_some, ← Bytes.toList_ofFn]
  rfl

namespace Source
variable {s : Source}

/-- The answer, and the source behind it. -/
def answerWord? (s : Source) (n : Nat) : Option (Except Failure ByteArray × Source) :=
  if s.traits.size ≤ s.position then some (.ok ByteArray.empty, s)
  else match s.traits.failAt.filter (· ≤ s.position) with
    | some stop => some (.error (.network s!"connection reset at {stop}"), s)
    | none => do
      let left ← Word.sub? s.limit s.position
      let bytes ← bytesWord? s.position (min (min n (max s.traits.chunk 1)) left)
      let position ← Word.add? s.position bytes.size
      some (.ok bytes, { s with position })

def readWord? (s : Source) (n : Nat) : Option (Reply Source) :=
  if s.closed then some ⟨0, .error .closed, s⟩
  else if n = 0 then some ⟨0, .ok ByteArray.empty, s⟩
  else if s.cancelled then some ⟨0, .error .cancelled, s⟩
  else do
    let (answer, next) ← s.answerWord? n
    some ⟨s.wait, answer, next⟩

theorem answerWord?_eq (h : s.traits.size < wordBound) (n : Nat) :
    s.answerWord? n = some (s.answer n, s.moved (s.answer n) none) := by
  rw [answerWord?]
  rcases Nat.lt_or_ge s.position s.limit with hlt | hge
  · have hmore : ¬ s.traits.size ≤ s.position := Nat.not_le_of_lt (Nat.lt_of_lt_of_le hlt s.limit_le_size)
    have hend : s.position + s.next n < wordBound := by
      have hle := s.limit_le_size
      have hnext : s.next n ≤ s.limit - s.position := Nat.min_le_right _ _
      omega
    have hbytes : bytesWord? s.position (min (min n (max s.traits.chunk 1)) (s.limit - s.position)) =
        some (bytes s.position (s.next n)) := bytesWord?_eq (Nat.le_of_lt hend)
    have hsize : (bytes s.position (s.next n)).size = s.next n := Bytes.size_ofFn _ _
    have hposition : s.position + (bytes s.position (s.next n)).size < wordBound := by rwa [hsize]
    rw [if_neg hmore, filter_failAt_of_lt_limit hlt, answer_of_lt_limit hlt, moved_none]
    simp only [Word.sub?_eq (Nat.le_of_lt hlt), Option.bind_eq_bind, Option.bind_some, hbytes, Word.add?_eq hposition]
    rfl
  · rcases Nat.lt_or_ge s.position s.traits.size with hmore | hend
    · obtain ⟨stop, -, hfails⟩ := filter_failAt_of_limit_le hmore hge
      rw [if_neg (Nat.not_le_of_lt hmore), hfails, answer, if_neg (Nat.not_le_of_lt hmore), hfails, moved_none]
      rfl
    · rw [if_pos hend, answer_of_size_le hend, moved_none]
      rfl

/-- Where the size of the file is a number of 64 bits, so are all that a read comes upon. -/
theorem readWord?_eq (h : s.traits.size < wordBound) (n : Nat) : s.readWord? n = some (s.read n) := by
  rw [readWord?, answerWord?_eq h]
  by_cases hclosed : s.closed = true
  · rw [if_pos hclosed, read, if_pos hclosed]
  · by_cases hn : n = 0
    · rw [if_neg hclosed, if_pos hn, read, if_neg hclosed, if_pos hn]
    · by_cases hcancelled : s.cancelled = true
      · rw [if_neg hclosed, if_neg hn, if_pos hcancelled, read, if_neg hclosed, if_neg hn, if_pos hcancelled]
      · rw [if_neg hclosed, if_neg hn, if_neg hcancelled,
          read_eq hclosed (Nat.pos_of_ne_zero hn) (Bool.eq_false_iff.mpr hcancelled)]
        rfl

end Source
end Pattern

/-! ### Feeds -/

namespace Feed
variable {σ : Type} {origin : Origin σ} {now base size : Nat} {ring : Ring} {f : Feed σ} {rest : ByteArray}
  {left : 0 < rest.size}

def haltWord? (f : Feed σ) (ring : Ring) (woke : Bool) (cause : Option Failure) : Option (After σ) := do
  let r ← ring.finishWord?
  some { ring := r.ring
         woke := woke || r.woke
         feed := { f with phase := .stopped, failure := cause.filter (!·.isShutdown), closes := f.closes + 1 } }

def pourWord? (f : Feed σ) (ring : Ring) (rest : ByteArray) (left : 0 < rest.size) : Option (After σ) :=
  if ring.isClosed then f.haltWord? ring false (some (.ring .closed))
  else do
    let free ← ring.freeWord?
    if free = 0 then some ⟨ring, false, { f with phase := .blocked rest left false }⟩
    else do
      let n := min free rest.size
      let r ← ring.appendWord? (← Bytes.slice? rest 0 n)
      match r.answer with
      | .error cause => f.haltWord? r.ring r.woke (some (.ring cause))
      | .ok _ => do
        let copied ← Word.add? f.copied n
        -- The rest of the chunk is what was not put there.
        let missing ← Word.sub? rest.size n
        some ⟨r.ring, r.woke, { f with phase := if missing = 0 then .asking else afterPut rest n, copied }⟩

def takeWord? (f : Feed σ) (ring : Ring) (answer : Except Failure ByteArray) : Option (After σ) :=
  match answer with
  | .error cause => f.haltWord? ring false (some cause)
  | .ok chunk => if h : 0 < chunk.size then f.pourWord? ring chunk h else f.haltWord? ring false none

def askWord? (f : Feed σ) (origin : Origin σ) (now : Nat) (ring : Ring) : Option (After σ) :=
  let reply := origin.read f.source (min f.scratch ring.capacity)
  let f := { f with source := reply.next }
  if reply.delay = 0 then f.takeWord? ring reply.answer
  else some ⟨ring, false, { f with phase := .awaiting (now + reply.delay) reply.answer }⟩

def advanceWord? (f : Feed σ) (origin : Origin σ) (now : Nat) (ring : Ring) : Option (After σ) :=
  if !f.isReady now then some ⟨ring, false, f⟩
  else if f.cancelled then f.haltWord? ring false (some .cancelled)
  else match f.phase with
    | .asking => f.askWord? origin now ring
    | .awaiting _ answer => f.takeWord? ring answer
    | .blocked rest left _ => f.pourWord? ring rest left
    | .stopped => some ⟨ring, false, f⟩

theorem haltWord?_eq (hw : ring.writePosition < wordBound) (f : Feed σ) (woke : Bool) (cause : Option Failure) :
    f.haltWord? ring woke cause = some (f.halt ring woke cause) := by
  rw [haltWord?, Ring.finishWord?_eq hw]
  rfl

/-- A chunk goes into the ring as if there were no bound, if its end is a number of 64 bits. -/
theorem pourWord?_eq (hring : ring.Sound) (hc : ring.capacity < wordBound)
    (hend : ring.writePosition + rest.size < wordBound) (hcopied : f.copied ≤ ring.writePosition) :
    f.pourWord? ring rest left = some (f.pour ring rest left) := by
  have hw : ring.writePosition < wordBound := Nat.lt_of_le_of_lt (Nat.le_add_right _ _) hend
  unfold pourWord? pour
  by_cases hclosed : ring.isClosed = true
  · rw [if_pos hclosed, if_pos hclosed]
    exact haltWord?_eq hw f _ _
  · have hopen : ring.isClosed = false := Bool.eq_false_iff.mpr hclosed
    rw [if_neg hclosed, if_neg hclosed, Ring.freeWord?_eq hring, Option.bind_eq_bind, Option.bind_some]
    by_cases hfull : ring.free = 0
    · rw [if_pos hfull, if_pos hfull]
    · rw [if_neg hfull, if_neg hfull]
      generalize hn : min ring.free rest.size = n
      have hle : n ≤ rest.size := hn ▸ Nat.min_le_right _ _
      have hfree := Ring.free_of_open hopen
      have hroom := hring.room
      have hsize : (rest.extract 0 n).size = n := by
        rw [ByteArray.size_extract]
        omega
      have happend : ring.append (rest.extract 0 n) = _ := Ring.append_of_room hring hopen (by omega) (by omega)
      have happendWord : ring.appendWord? (rest.extract 0 n) = _ := Ring.appendWord?_eq hring hc (by omega)
      have hcount : f.copied + n < wordBound := by omega
      have hphase : (if rest.size - n = 0 then .asking else afterPut rest n) = afterPut rest n := by
        split
        · have hall : ¬ n < rest.size := by omega
          rw [afterPut, dif_neg hall]
        · rfl
      simp only [Bytes.slice?_of_le (Nat.zero_le n) hle, Option.bind_eq_bind, Option.bind_some, happendWord, happend,
        Word.add?_eq hcount, Word.sub?_eq hle, hphase]

theorem takeWord?_eq (hring : ring.Sound) (hc : ring.capacity < wordBound) (hw : ring.writePosition < wordBound)
    (hcopied : f.copied ≤ ring.writePosition) {answer : Except Failure ByteArray}
    (hend : ∀ chunk, answer = .ok chunk → 0 < chunk.size → ring.writePosition + chunk.size < wordBound) :
    f.takeWord? ring answer = some (f.take ring answer) := by
  cases answer with
  | error cause => exact haltWord?_eq hw f _ _
  | ok chunk =>
    unfold takeWord? take
    by_cases hpos : 0 < chunk.size
    · simp only [dif_pos hpos]
      exact pourWord?_eq hring hc (hend chunk rfl hpos) hcopied
    · simp only [dif_neg hpos]
      exact haltWord?_eq hw f _ _

/-- What a feed has at hand that brings bytes from before `size` ends there. -/
theorem Brings.end_le {answer : Except Failure ByteArray} {next : σ} {chunk : ByteArray}
    (hf : f.Brings origin (.within size) base ring) (h : f.Gets origin (min f.scratch ring.capacity) answer next)
    (hchunk : answer = .ok chunk) (hpos : 0 < chunk.size) : ring.writePosition + chunk.size ≤ size := by
  subst hchunk
  obtain ⟨hbytes, -⟩ := (Origin.Terms.allow_bytes hpos).mp (h.allowed hf.phase)
  exact Origin.Terms.end_le hpos hbytes

/-- A feed that brings bytes from before `size`, if it does not just stop, takes its step as if there were no bound. -/
theorem advanceWord?_eq (hring : ring.Sound) (hc : ring.capacity < wordBound) (hw : ring.writePosition < wordBound)
    (hsize : size < wordBound) (hf : f.cancelled = true ∨ f.Brings origin (.within size) base ring)
    (hr : f.isReady now = true) : f.advanceWord? origin now ring = some (f.advance origin now ring) := by
  have hready : ¬ (!f.isReady now) = true := by simp [hr]
  rw [advanceWord?, advance, if_neg hready, if_neg hready]
  by_cases hcancelled : f.cancelled = true
  · rw [if_pos hcancelled, if_pos hcancelled]
    exact haltWord?_eq hw f _ _
  · have hbrings := hf.resolve_left hcancelled
    have hcopied : f.copied ≤ ring.writePosition := hbrings.written ▸ Nat.le_add_left _ _
    have hend : ∀ {answer next}, f.Gets origin (min f.scratch ring.capacity) answer next → ∀ chunk, answer = .ok chunk →
        0 < chunk.size → ring.writePosition + chunk.size < wordBound :=
      fun hgets _ hchunk hpos => Nat.lt_of_le_of_lt (hbrings.end_le hgets hchunk hpos) hsize
    rw [if_neg hcancelled, if_neg hcancelled]
    cases hp : f.phase with
    | asking =>
      have hcount : { f with source := (origin.read f.source (min f.scratch ring.capacity)).next }.copied ≤
          ring.writePosition := hcopied
      unfold askWord? ask
      by_cases hd : (origin.read f.source (min f.scratch ring.capacity)).delay = 0
      · simp only [if_pos hd]
        exact takeWord?_eq hring hc hw hcount (hend (.asked hp hd))
      · simp only [if_neg hd]
    | awaiting due answer => exact takeWord?_eq hring hc hw hcopied (hend (.waited hp))
    | blocked rest left woken => exact pourWord?_eq hring hc (hend (.left hp) rest rfl left) hcopied
    | stopped => rfl

/-- A step of such a feed takes the write position no further than `size`. -/
theorem writePosition_advance_le (hring : ring.Sound)
    (hf : f.cancelled = true ∨ f.Brings origin (.within size) base ring) (hr : f.isReady now = true) :
    (f.advance origin now ring).ring.writePosition ≤ max ring.writePosition size := by
  have hkept : ring.writePosition ≤ max ring.writePosition size := Nat.le_max_left _ _
  have hhalted : ring.finish.ring.writePosition ≤ max ring.writePosition size := by rwa [Ring.writePosition_finish]
  rcases advance_cases origin ring hr with ⟨-, he⟩ | ⟨-, -, -, he⟩ | ⟨hgo, answer, next, hgets, he⟩
  · rw [he]
    exact hhalted
  · rw [he]
    exact hkept
  · have hbrings := hf.resolve_left (Bool.eq_false_iff.mp hgo)
    rcases take_cases hring { f with source := next } answer with
      ⟨cause, -, htake⟩ | ⟨rest, left, -, -, -, htake⟩ | ⟨rest, n, hrest, hopen, hpos, hn, htake⟩
    all_goals rw [he, htake]
    · exact hhalted
    · exact hkept
    · have hfree := Ring.free_of_open hopen
      have hroom := hring.room
      have hend := hbrings.end_le hgets hrest (by omega)
      have hbytes : (rest.extract 0 n).size = n := by
        rw [ByteArray.size_extract]
        omega
      rw [Ring.writePosition_put (by omega), hbytes]
      omega

end Feed
end ReadAhead
