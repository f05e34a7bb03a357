import ReadAhead.Proofs.Session.Answer

/-! How far reads reach. A read waits for bytes up to the declared size and no further, but then takes whatever its
    buffer has room for: where the file is longer than declared and the feed is ahead, that is more than there
    should be (`overruns_declared_size`). A buffer that ends within the declared size, or a file that does, keeps the
    read within it, and then `eof` says just whether the read came to the declared end. -/

namespace ReadAhead
namespace Session
variable {σ : Type} {origin : Origin σ} {terms : Origin.Terms} {s s₀ : Session σ} {r : Reading} {d : Delivery}

/-- Bytes that all lie within the file end within it. -/
theorem Answered.end_le {stream : Stream} (h : Answered (.within stream.size) stream r d)
    (hposition : r.position < stream.size) : r.position + d.bytes.size ≤ stream.size := by
  by_cases hsize : d.bytes.size = 0
  · rw [hsize]
    exact Nat.le_of_lt hposition
  · exact Origin.Terms.end_le (Nat.pos_of_ne_zero hsize) h.byte

theorem Answered.eof_iff {stream : Stream} (h : Answered terms stream r d)
    (hend : r.position + d.bytes.size ≤ stream.size) :
    d.eof = true ↔ r.position + d.bytes.size = stream.size := by
  rw [h.eof, decide_eq_true_iff]
  exact ⟨fun hge => Nat.le_antisymm hend hge, fun he => Nat.le_of_eq he.symm⟩

/-- Whatever the owner of a new stream does and in whatever order the steps are taken: a read at a position within the
    declared size that is done, and whose buffer ends within it or whose source does, ends within it too, and `eof`
    tells whether it ends there. -/
theorem reads_end_within_size (hnew : IsNew s₀) (hs : Weaves origin (fun _ _ => True) s₀ s) (hr : .read r ∈ s.tasks)
    (hdone : r.phase = .done (.ok d)) (hposition : r.position < s₀.stream.size)
    (hfits : r.position + r.len ≤ s₀.stream.size ∨
      ∀ attempt start source, origin.connect s₀.stream.url attempt start = .ok source →
        ∀ limit, origin.Honours (.within s₀.stream.size) limit start source) :
    r.position + d.bytes.size ≤ s₀.stream.size ∧ (d.eof = true ↔ r.position + d.bytes.size = s₀.stream.size) := by
  obtain ⟨hany, -⟩ := answered_of_weaves hnew (offers_any origin s₀.stream) hs r d hr hdone
  rw [stream_weaves hs] at hany
  have hend : r.position + d.bytes.size ≤ s₀.stream.size := by
    rcases hfits with hlen | hwithin
    · have := hany.le
      omega
    · have hoffers : Offers origin (fun _ => .within s₀.stream.size) s₀.stream :=
        fun attempt start source _ hconn => hwithin attempt start source hconn _
      obtain ⟨hanswered, -⟩ := answered_of_weaves hnew hoffers hs r d hr hdone
      rw [stream_weaves hs] at hanswered
      exact hanswered.end_le hposition
  exact ⟨hend, hany.eof_iff hend⟩

/-- A stream declared to have one byte, through a ring of two. -/
def declaredShort : Session Nat :=
  onStorage (Stream.of 1 "http://origin/file" 1 ⟨2, 0⟩ (.ofSeconds 1) (.ofSeconds 1) 1) (Bytes.ofFn 2 fun _ => 0) 0

/-- Its first `len` bytes are read, while the file has two and the feed brings both before the read has its turn. -/
def readAhead (len : Nat) : Session Nat :=
  ((((declaredShort.start len 0 none).turn (.counting 2) 0).feedStep (.counting 2) 0).feedStep (.counting 2) 0).turn
    (.counting 2) 0

theorem isNew_declaredShort : IsNew declaredShort := ⟨_, _, _, _, _, _, _, _, _, rfl, rfl⟩

theorem weaves_readAhead {len : Nat} (hlen : len = 1 ∨ len = 2) :
    Weaves (.counting 2) (fun _ _ => True) declaredShort (readAhead len) := by
  have hstart : Weaves (.counting 2) (fun _ _ => True) declaredShort (declaredShort.start len 0 none) :=
    .single (.act (a := .start len 0 none) trivial)
  rcases hlen with rfl | rfl
  all_goals
    exact (((hstart.tail (.move (m := .task 0) ⟨rfl, rfl⟩)).tail (.move (m := .feed 0) rfl)).tail
      (.move (m := .feed 0) rfl)).tail (.move (m := .task 0) ⟨rfl, rfl⟩)

theorem one_byte_ends_file : ∃ r d, .read r ∈ (readAhead 1).tasks ∧ r.phase = .done (.ok d) ∧
    r.position + d.bytes.size ≤ 1 ∧ (d.eof = true ↔ r.position + d.bytes.size = 1) := by
  obtain ⟨r, d, hr, hdone, hposition, hlen⟩ : ∃ r d, (readAhead 1).tasks[0]? = some (.read r) ∧
    r.phase = .done (.ok d) ∧ r.position = 0 ∧ r.len = 1 := ⟨_, _, rfl, rfl, rfl, rfl⟩
  have hweaves := weaves_readAhead (Or.inl rfl)
  have hmem := List.mem_of_getElem? hr
  have hin : r.position < declaredShort.stream.size := by
    rw [hposition]
    exact Nat.one_pos
  have hfits : r.position + r.len ≤ declaredShort.stream.size := by
    rw [hposition, hlen]
    exact Nat.le_refl 1
  exact ⟨r, d, hmem, hdone, reads_end_within_size isNew_declaredShort hweaves hmem hdone hin (Or.inl hfits)⟩

/-- With a buffer for two bytes, the read gets a byte from beyond the declared size. -/
theorem overruns_declared_size : ∃ s : Session Nat, IsNew declaredShort ∧
    Weaves (.counting 2) (fun _ _ => True) declaredShort s ∧
    ∃ r d, s.tasks[0]? = some (.read r) ∧ r.phase = .done (.ok d) ∧ r.position < declaredShort.stream.size ∧
      declaredShort.stream.size < r.position + d.bytes.size :=
  ⟨readAhead 2, isNew_declaredShort, weaves_readAhead (Or.inr rfl), _, _, rfl, rfl, by decide, by decide⟩

end Session
end ReadAhead
