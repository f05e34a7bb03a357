import ReadAhead.Proofs.Feed.Halt
import ReadAhead.Proofs.Source.Draws
import ReadAhead.Proofs.Source.Given

/-! What a feed carries from its source into its ring. The bytes that it has put there, with those that it still
    holds, are the bytes that the source has given, in their order (`Carries`); so while the feed waits for
    an answer, it holds none. When it has stopped, the reason says what is behind the bytes that it put
    (`Reason.Explains`): only at the end of the data they are all that the source had. A step keeps this, and puts
    its bytes right behind those of the ring (`carries_advance`). -/

namespace ReadAhead
namespace Ring

/-- Afterwards the ring holds `bytes` right behind what had been written before. -/
structure Puts (ring after : Ring) (bytes : List UInt8) : Prop where
  writePosition : after.writePosition = ring.writePosition + bytes.length
  byte : ∀ i b, bytes[i]? = some b → after.byte? (ring.writePosition + i) = some b

theorem puts_nil {ring after : Ring} (h : after.writePosition = ring.writePosition) : Puts ring after [] :=
  ⟨h, fun _ _ hb => (nomatch hb)⟩

theorem puts_put {ring : Ring} {data : ByteArray} (hring : ring.Sound) (hopen : ring.isClosed = false)
    (hroom : ring.len + data.size ≤ ring.capacity) : Puts ring (ring.put data) data.data.toList := by
  refine ⟨?_, fun i b hb => ?_⟩
  · rw [writePosition_put hroom, Array.length_toList, ByteArray.size_data]
  · rw [Array.getElem?_toList] at hb
    rw [byte?_put_new hring hroom hopen (Origin.lt_size_of_getElem? hb), hb]

end Ring

namespace Feed
variable {σ : Type} {origin : Origin σ} {limit now : Nat} {source next : σ} {put : List UInt8} {ring after : Ring}
  {f : Feed σ} {answer : Except Failure ByteArray}

/-- A feed that has put these bytes holds the ones that the source has given since, the source now being `now`. -/
def Phase.Carries (origin : Origin σ) (limit : Nat) (source : σ) (put : List UInt8) (now : σ) : Phase → Prop
  | .asking => origin.Draws limit source put now
  | .awaiting _ answer => ∃ x, origin.Draws limit source put x ∧ 0 < (origin.read x limit).delay ∧
      (origin.read x limit).answer = answer ∧ (origin.read x limit).next = now
  | .blocked rest _ _ => origin.Draws limit source (put ++ rest.data.toList) now
  | .stopped => ∃ rest x, origin.Draws limit source (put ++ rest) x

/-- What a reason to stop says of the bytes put until then. -/
def Reason.Explains (origin : Origin σ) (limit : Nat) (source : σ) (put : List UInt8) (f : Feed σ) (ring : Ring) :
    Reason → Prop
  | .cancelled => f.cancelled = true
  | .drained => origin.Drains limit source put
  | .failed cause => ∃ x, origin.Draws limit source put x ∧ (origin.read x limit).answer = .error cause
  | .shut => ring.isClosed = true

/-- The feed, which was given `source`, has put these bytes. -/
structure Carries (origin : Origin σ) (limit : Nat) (source : σ) (put : List UInt8) (f : Feed σ) (ring : Ring) :
    Prop where
  asks : min f.scratch ring.capacity = limit
  copied : f.copied = put.length
  phase : f.phase.Carries origin limit source put f.source
  ended : f.isStopped = true →
    ∃ reason : Reason, reason.Explains origin limit source put f ring ∧ f.failure = reason.failure

theorem carries_fresh {start scratch : Nat} (hasks : min scratch ring.capacity = limit) :
    (fresh source start scratch).Carries origin limit source [] ring :=
  ⟨hasks, rfl, .none, fun h => (nomatch h)⟩

/-- After a step the feed has put the bytes of the step, too. -/
def After.Carries (origin : Origin σ) (limit : Nat) (source : σ) (put : List UInt8) (ring : Ring) (a : After σ) : Prop :=
  ∃ bytes, Ring.Puts ring a.ring bytes ∧ a.feed.Carries origin limit source (put ++ bytes) a.ring

/-- An answer at hand is what the source answered last, or bytes that it has given. -/
theorem Gets.drawn (h : f.Gets origin limit answer next) (hphase : f.phase.Carries origin limit source put f.source) :
    (∃ x, origin.Draws limit source put x ∧ (origin.read x limit).answer = answer ∧ (origin.read x limit).next = next) ∨
      ∃ rest, answer = .ok rest ∧ 0 < rest.size ∧ origin.Draws limit source (put ++ rest.data.toList) next := by
  cases h with
  | asked hp =>
    rw [hp] at hphase
    exact Or.inl ⟨f.source, hphase, rfl, rfl⟩
  | waited hp =>
    rw [hp] at hphase
    obtain ⟨x, hdraws, -, hanswer, hnext⟩ := hphase
    exact Or.inl ⟨x, hdraws, hanswer, hnext⟩
  | @left rest left _ hp =>
    rw [hp] at hphase
    exact Or.inr ⟨rest, rfl, left, hphase⟩

/-- Bytes at hand come next in the order of the source. -/
theorem Gets.draws {rest : ByteArray} (h : f.Gets origin limit (.ok rest) next)
    (hphase : f.phase.Carries origin limit source put f.source) (hpos : 0 < rest.size) :
    origin.Draws limit source (put ++ rest.data.toList) next := by
  obtain ⟨x, hdraws, hanswer, rfl⟩ | ⟨bytes, hrest, -, hdraws⟩ := h.drawn hphase
  · exact .more hdraws hanswer hpos
  · rw [Except.ok.inj hrest]
    exact hdraws

theorem Phase.Carries.drawn {phase : Phase} {x : σ} (h : phase.Carries origin limit source put x) :
    ∃ rest y, origin.Draws limit source (put ++ rest) y := by
  cases phase with
  | asking => exact ⟨[], x, (List.append_nil put).symm ▸ h⟩
  | awaiting =>
    obtain ⟨y, hdraws, -⟩ := h
    exact ⟨[], y, (List.append_nil put).symm ▸ hdraws⟩
  | blocked rest => exact ⟨rest.data.toList, x, h⟩
  | stopped => exact h

theorem carries_halt (reason : Reason) {cause : Option Failure} (hring : ring.Sound)
    (h : f.Carries origin limit source put ring) (hreason : reason.Explains origin limit source put f ring)
    (hcause : cause.filter (!·.isShutdown) = reason.failure) (next : σ) :
    ({ f with source := next }.halt ring false cause).Carries origin limit source put ring := by
  refine ⟨[], Ring.puts_nil (Ring.writePosition_finish ring), ?_⟩
  rw [List.append_nil]
  refine ⟨?_, h.copied, h.phase.drawn, fun _ => ⟨reason, ?_, hcause⟩⟩
  · simp only [halt, (worked_finish hring).capacity]
    exact h.asks
  · cases reason with
    | shut => exact (Ring.isClosed_finish ring).trans hreason
    | _ => exact hreason

/-- Bytes that were put from those at hand are no longer held. -/
theorem carries_afterPut {rest : ByteArray} {n : Nat} (hn : n ≤ rest.size)
    (h : origin.Draws limit source (put ++ rest.data.toList) next) :
    (afterPut rest n).Carries origin limit source (put ++ (rest.extract 0 n).data.toList) next := by
  rw [← Bytes.toList_split hn, ← List.append_assoc] at h
  unfold afterPut
  split
  · exact h
  · have hnone : (rest.extract n rest.size).size = 0 := by
      rw [ByteArray.size_extract]
      omega
    rwa [Bytes.toList_eq_nil hnone, List.append_nil] at h

theorem carries_take (hring : ring.Sound) (h : f.Carries origin limit source put ring)
    (hgets : f.Gets origin limit answer next) :
    ({ f with source := next }.take ring answer).Carries origin limit source put ring := by
  have hdrawn := hgets.drawn h.phase
  rcases take_cases hring { f with source := next } answer with
    ⟨cause, hends, he⟩ | ⟨rest, left, rfl, -, -, he⟩ | ⟨rest, n, rfl, hopen, hpos, hn, he⟩
  · rw [he]
    cases hends with
    | failed cause =>
      obtain ⟨x, hdraws, hanswer, -⟩ | ⟨rest, hrest, -⟩ := hdrawn
      · refine carries_halt (.failed cause) hring h ⟨x, hdraws, hanswer⟩ ?_ next
        cases hs : cause.isShutdown <;> simp [Reason.failure, hs]
      · cases hrest
    | @spent bytes hz =>
      obtain ⟨x, hdraws, hanswer, -⟩ | ⟨rest, hrest, hpos, -⟩ := hdrawn
      · have hall := hdraws.drains (.ended hanswer hz)
        rw [List.append_nil] at hall
        exact carries_halt .drained hring h hall rfl next
      · obtain rfl := Except.ok.inj hrest
        omega
    | shut hclosed => exact carries_halt .shut hring h hclosed rfl next
  · rw [he]
    refine ⟨[], Ring.puts_nil rfl, ?_⟩
    rw [List.append_nil]
    refine ⟨h.asks, h.copied, hgets.draws h.phase left, fun hs => ?_⟩
    cases hs
  · have hfree := Ring.free_of_open hopen
    have hroom := hring.room
    have hle : n ≤ rest.size := by omega
    have hsize : (rest.extract 0 n).size = n := by
      rw [ByteArray.size_extract]
      omega
    have hdraws := hgets.draws h.phase (by omega)
    have hlength : (rest.extract 0 n).data.toList.length = n := by
      rw [Array.length_toList, ByteArray.size_data, hsize]
    rw [he]
    refine ⟨(rest.extract 0 n).data.toList, Ring.puts_put hring hopen (by omega), h.asks, ?_, ?_, fun hs => ?_⟩
    · rw [List.length_append, hlength, ← h.copied]
    · exact carries_afterPut hle hdraws
    · rw [isStopped_eq_false (isStopped_afterPut rest n)] at hs
      cases hs

/-- A step puts bytes of the source behind those that were put before, in the order of the source. -/
theorem carries_advance (hring : ring.Sound) (h : f.Carries origin limit source put ring) (hr : f.isReady now = true) :
    (f.advance origin now ring).Carries origin limit source put ring := by
  rcases advance_cases origin ring hr with ⟨hc, he⟩ | ⟨-, hp, hd, he⟩ | ⟨-, answer, next, hgets, he⟩
  · rw [he]
    exact carries_halt .cancelled hring h hc rfl f.source
  · have hphase := h.phase
    rw [hp] at hphase
    rw [h.asks] at hd
    rw [he]
    refine ⟨[], Ring.puts_nil rfl, ?_⟩
    rw [List.append_nil]
    exact ⟨h.asks, h.copied, ⟨f.source, hphase, hd, by rw [h.asks], by rw [h.asks]⟩, fun hs => (nomatch hs)⟩
  · rw [h.asks] at hgets
    rw [he]
    exact carries_take hring h hgets

/-! ### What others do -/

/-- A ring that others worked on, if it is as large and was not opened again. -/
theorem Carries.worked (h : f.Carries origin limit source put ring) (hcapacity : after.capacity = ring.capacity)
    (hclosed : ring.isClosed = true → after.isClosed = true) : f.Carries origin limit source put after := by
  refine ⟨by rw [hcapacity]; exact h.asks, h.copied, h.phase, fun hs => ?_⟩
  obtain ⟨reason, hreason, hfailure⟩ := h.ended hs
  refine ⟨reason, ?_, hfailure⟩
  cases reason with
  | shut => exact hclosed hreason
  | _ => exact hreason

theorem Carries.wake (h : f.Carries origin limit source put ring) : f.wake.Carries origin limit source put ring := by
  rcases f with ⟨source, start, scratch, phase, copied, failure, closes, cancelled⟩
  cases phase with
  | blocked rest left woken => exact ⟨h.asks, h.copied, h.phase, fun hs => (nomatch hs)⟩
  | _ => exact h

theorem Carries.cancel (h : f.Carries origin limit source put ring) : f.cancel.Carries origin limit source put ring := by
  refine ⟨h.asks, h.copied, h.phase, fun hs => ?_⟩
  obtain ⟨reason, hreason, hfailure⟩ := h.ended hs
  refine ⟨reason, ?_, hfailure⟩
  cases reason with
  | cancelled => rfl
  | _ => exact hreason

end Feed
end ReadAhead
