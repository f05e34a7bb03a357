import ReadAhead.Proofs.Session.Result

/-! What a read delivers. If every connection gives the bytes of some file, each perhaps of another one, then
    a read delivers the bytes at its own position out of the file of one connection: the last one attempted,
    whose feed is in the slot when the read returns. Nothing of an earlier feed, of an earlier lap of the ring
    or of the storage it was given gets through, and nothing is left out or told twice. -/

namespace ReadAhead
namespace Session
variable {σ : Type} {origin : Origin σ} {files : Nat → Nat → UInt8} {s s₀ t : Session σ} {i : Nat}

/-- The bytes that a read takes are those of the connection in the slot. -/
theorem AtWork.delivers {r : Reading} {last : Nat} {d : Delivery}
    (hwork : AtWork origin (fun attempt => .file (files attempt)) s i r last) (h : Served s i r last d t) :
    ∃ k f source, t.slot = some k ∧ t.feeds[k]? = some f ∧
      origin.connect s.stream.url (t.attempts - 1) f.start = .ok source ∧
      t.tasks[i]? = some (.read { r with phase := .done (.ok d) }) ∧
      ∀ j < d.bytes.size, d.bytes.data[j]? = some (files (t.attempts - 1) (r.position + j)) := by
  obtain ⟨left, htaken, rfl⟩ := h.taken
  obtain ⟨k, hk⟩ := Option.isSome_iff_exists.mp hwork.slot
  obtain ⟨f, hf, hs⟩ := hwork.fit.serving k hk
  obtain ⟨source, hsource⟩ := hs.connected
  obtain ⟨hopen, -, -⟩ := (Ring.isResident_iff hwork.fit.ring).mp h.resident
  obtain ⟨-, hfills⟩ := hs.fills hopen
  refine ⟨k, f.wake, source, by simpa using hk, ?_, ?_, ?_, fun j hj => ?_⟩
  · rw [finish_eq, feeds_endTask, feeds_note, feeds_setRing, List.getElem?_map, hf]
    rfl
  · rw [(Feed.same_wake f).start]
    simpa using hsource
  · rw [finish_eq, tasks_endTask]
    exact List.getElem?_set_self (by simpa [tasks_setRing] using (List.getElem?_eq_some_iff.mp hwork.task).1)
  · have hsize := htaken.size
    have hlow := hwork.low
    obtain ⟨b, hb, hfile⟩ := hfills.window (r.position + j) (by omega) (by omega)
    have hbyte : b = files (s.attempts - 1) (r.position + j) := hfile
    rw [htaken.byte j hj, hb, hbyte]
    simp

theorem offers_file {stream : Stream}
    (hfiles : ∀ attempt start source, origin.connect stream.url attempt start = .ok source →
      ∀ limit, origin.Honours (.file (files attempt)) limit start source) :
    Offers origin (fun attempt => .file (files attempt)) stream :=
  fun attempt start source _ hconn => hfiles attempt start source hconn _

/-- A step that gives a read bytes gives it those of the connection in the slot. -/
theorem Sound.delivers (h : Sound origin (fun attempt => .file (files attempt)) s)
    (hoffers : Offers origin (fun attempt => .file (files attempt)) s.stream) (hstep : Step origin s t) {d : Delivery}
    (hs : s.result? i = none) (ht : t.result? i = some (.ok d)) (hpos : 0 < d.bytes.size) :
    ∃ r k f source, t.tasks[i]? = some (.read r) ∧ t.slot = some k ∧ t.feeds[k]? = some f ∧
      origin.connect s.stream.url (t.attempts - 1) f.start = .ok source ∧
      ∀ j < d.bytes.size, d.bytes.data[j]? = some (files (t.attempts - 1) (r.position + j)) := by
  rcases hstep.gives hs ht with ⟨r, hi, hhead, hready, rfl⟩ | hnone
  · obtain ⟨u, last, hwork, hstream, hserved⟩ := h.served hoffers hi hhead hready ht
    obtain ⟨k, f, source, hk, hf, hconn, htask, hbytes⟩ := hwork.delivers hserved
    exact ⟨{ r with phase := .done (.ok d) }, k, f, source, htask, hk, hf, hstream ▸ hconn, hbytes⟩
  · rw [hnone d rfl] at hpos
    cases hpos

/-- Whatever commands a new stream carries out, each read that is done with bytes was given them by a step, and
    got the bytes from its position on out of the file of one connection: that of the feed in the slot when the
    step was taken, which is the last one attempted. -/
theorem reads_deliver_their_connection (hnew : IsNew s₀)
    (hfiles : ∀ attempt start source, origin.connect s₀.stream.url attempt start = .ok source →
      ∀ limit, origin.Honours (.file (files attempt)) limit start source)
    (cs : List Command) {r : Reading} {d : Delivery} (hi : (s₀.performAll origin cs).tasks[i]? = some (.read r))
    (hdone : r.phase = .done (.ok d)) (hpos : 0 < d.bytes.size) :
    ∃ s t k f source, Reaches origin s₀ s ∧ Step origin s t ∧ Reaches origin t (s₀.performAll origin cs) ∧
      s.result? i = none ∧ t.tasks[i]? = some (.read r) ∧ t.slot = some k ∧ t.feeds[k]? = some f ∧
      origin.connect s₀.stream.url (t.attempts - 1) f.start = .ok source ∧
      ∀ j < d.bytes.size, d.bytes.data[j]? = some (files (t.attempts - 1) (r.position + j)) := by
  have hoffers := offers_file hfiles
  obtain ⟨hreach, -⟩ := reaches_performAll origin cs hnew.isSettled
  have hresult : (s₀.performAll origin cs).result? i = some (.ok d) := result?_of_done hi hdone
  have hfirst : s₀.result? i = none := by
    obtain ⟨node, url, size, tier, readTimeout, maxReadTimeout, scratch, storage, now, -, rfl⟩ := hnew
    simp [result?_eq, onStorage]
  -- The step that gave the result is the one to look at, since a read that is over stays as it is.
  obtain ⟨s, t, hs, hst, ht, hno, hyes⟩ := exists_step_of_result? hreach hfirst hresult
  obtain ⟨hsound, hstream⟩ := (hnew.sound origin _).reaches hoffers hs
  obtain ⟨r', k, f, source, htask, hk, hf, hconn, hbytes⟩ := hsound.delivers (hstream ▸ hoffers) hst hno hyes hpos
  have hover : (Task.read r').isOver = true := by
    rw [result?_of_task htask] at hyes
    simp only [Task.result?] at hyes
    split at hyes
    · simp [Task.isOver, *]
    · cases hyes
  have hsame := over_of_reaches ht htask hover
  rw [hi] at hsame
  obtain rfl := Task.read.inj (Option.some.inj hsame)
  exact ⟨s, t, k, f, source, hs, hst, ht, hno, htask, hk, hf, hstream ▸ hconn, hbytes⟩

/-- A stream of two bytes through a ring of one, over a storage that holds another byte. -/
def twoBytes : Session Nat :=
  onStorage (Stream.of 1 "http://origin/file" 2 ⟨1, 0⟩ (.ofSeconds 1) (.ofSeconds 1) 1) (Bytes.ofFn 1 fun _ => 9) 0

def secondRead : Session Nat :=
  ((twoBytes.start 1 1 none).runFor (Origin.counting 2) none (fun t => t.isOver 0) 4).runFor (Origin.counting 2) (some 0)
    (fun _ => false) 4

theorem performAll_twoBytes : twoBytes.performAll (Origin.counting 2) [.read 1 1 none] = secondRead := by
  have hread := run_eq_runFor (Origin.counting 2) none (fun t => t.isOver 0) 4 (twoBytes.start 1 1 none) (Or.inl rfl)
  have hrest := run_eq_runFor (Origin.counting 2) (some 0) (fun _ => false) 4
    ((twoBytes.start 1 1 none).runFor (Origin.counting 2) none (fun t => t.isOver 0) 4) (Or.inr rfl)
  have hdone := run_eq_runFor (Origin.counting 2) (some 0) (fun _ => false) 0 secondRead (Or.inr rfl)
  have hall : twoBytes.performAll (Origin.counting 2) [.read 1 1 none] =
    (((twoBytes.start 1 1 none).run (Origin.counting 2) none fun t => t.isOver 0).settle (Origin.counting 2)).settle
      (Origin.counting 2) := rfl
  rw [hall, hread]
  exact (congrArg (settle _) hrest).trans hdone

theorem second_byte_is_delivered :
    ∃ r d, secondRead.tasks[0]? = some (.read r) ∧ r.phase = .done (.ok d) ∧ d.bytes.data[0]? = some 1 := by
  obtain ⟨r, d, hr, hd, hsize, hposition⟩ : ∃ r d, secondRead.tasks[0]? = some (.read r) ∧ r.phase = .done (.ok d) ∧
    d.bytes.size = 1 ∧ r.position = 1 := ⟨_, _, rfl, rfl, rfl, rfl⟩
  have hnew : IsNew twoBytes := ⟨_, _, _, _, _, _, _, _, _, rfl, rfl⟩
  have hfiles : ∀ attempt start source, (Origin.counting 2).connect twoBytes.stream.url attempt start = .ok source →
      ∀ limit, (Origin.counting 2).Honours (.file fun p => UInt8.ofNat p) limit start source := by
    intro attempt start source hconn limit
    obtain rfl : start = source := Except.ok.inj hconn
    exact Origin.counting_honours (fun _ _ => rfl) (fun _ _ => trivial) start
  obtain ⟨s, t, k, f, source, -, -, -, -, -, -, -, -, hbytes⟩ :=
    reads_deliver_their_connection hnew hfiles [.read 1 1 none] (by rw [performAll_twoBytes, hr]) hd (by omega)
  refine ⟨r, d, hr, hd, ?_⟩
  rw [hbytes 0 (by omega), hposition]
  rfl

end Session
end ReadAhead
