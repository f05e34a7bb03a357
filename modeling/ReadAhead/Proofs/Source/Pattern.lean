import ReadAhead.Source.Pattern
import ReadAhead.Source.Use

/-! The sources of the reference file, however they are used. A read may be cancelled while it waits. There is one
    lemma for each thing that a read can come to, in the order of the checks (`comesTo_closed` and on); the source
    moves by the bytes of the answer (`next_ask`), which are those of the file (`bytesOf_ask`). So what a source has
    given is the file from where it started to where it stands (`Stands`). -/

namespace ReadAhead
namespace Bytes

theorem toList_go (f : Nat → UInt8) : ∀ (n i : Nat) (done : ByteArray),
    (ofFn.go f n i done).data.toList = done.data.toList ++ (List.range' i n).map f
  | 0, _, done => by rw [ofFn.go, List.range'_zero, List.map_nil, List.append_nil]
  | n + 1, i, done => by
    rw [ofFn.go, toList_go f n, ByteArray.data_push, Array.toList_push, List.range'_succ, List.map_cons,
      List.append_assoc, List.singleton_append]

theorem toList_ofFn (n : Nat) (f : Nat → UInt8) : (ofFn n f).data.toList = (List.range n).map f := by
  have hnil : (ByteArray.emptyWithCapacity n).data.toList = [] := rfl
  rw [ofFn, toList_go, hnil, List.nil_append, List.range_eq_range']

end Bytes

namespace Pattern

theorem toList_bytes (start n : Nat) : (bytes start n).data.toList = (List.range' start n).map byte := by
  rw [bytes, Bytes.toList_ofFn, List.range'_eq_map_range, List.map_map]
  rfl

/-- What may be asked of a source. -/
inductive Call
  /-- Asks for at most `n` bytes. The source is cancelled so many milliseconds into the read, if at all. -/
  | read (n : Nat) (interrupt : Option Nat)
  | cancel
  | close
  deriving DecidableEq

/-- Whether the source is cancelled by the call. -/
def Call.cancels : Call → Bool
  | .read _ interrupt => interrupt.isSome
  | .cancel | .close => true

namespace Source
variable {s : Source} {traits : Traits} {start n : Nat} {interrupt : Option Nat} {answer : Except Failure ByteArray}
  {out : List UInt8} {calls : List Call}

/-! ### Use -/

/-- Asks for at most `n` bytes, and cancels the source while it waits or behind the answer. -/
def ask (s : Source) (n : Nat) (interrupt : Option Nat) : Reply Source :=
  let reply := s.read n
  match interrupt with
  | none => reply
  | some after =>
    if after < reply.delay then ⟨after, .error .cancelled, s.cancel⟩ else { reply with next := reply.next.cancel }

/-- The source after one call. -/
def step (s : Source) : Call → Source
  | .read n interrupt => (s.ask n interrupt).next
  | .cancel => s.cancel
  | .close => s.close

/-- The source after call upon call. -/
def after (calls : List Call) (s : Source) : Source := calls.foldl step s

/-- The bytes that one call gives. -/
def given (s : Source) : Call → List UInt8
  | .read n interrupt => Handling.bytesOf (s.ask n interrupt).answer
  | .cancel | .close => []

/-- The bytes that call upon call gives, one behind the other. -/
def delivered : List Call → Source → List UInt8
  | [], _ => []
  | call :: calls, s => s.given call ++ delivered calls (s.step call)

/-! ### What a read comes to -/

/-- How long the source waits before it has an answer. -/
def wait (s : Source) : Nat := min s.traits.delay Duration.longestWait

/-- The source is cancelled, or will be while it waits. -/
def Hindered (s : Source) (interrupt : Option Nat) : Prop :=
  s.cancelled = true ∨ ∃ after, interrupt = some after ∧ after < s.wait

/-- The source behind an answer. -/
def moved (s : Source) (answer : Except Failure ByteArray) (interrupt : Option Nat) : Source :=
  { s with
    position := s.position + (Handling.bytesOf answer).length
    cancelled := s.cancelled || interrupt.isSome }

/-- Asked for at most `n` bytes, the source answers so, and moves by the bytes of the answer. -/
def ComesTo (s : Source) (n : Nat) (interrupt : Option Nat) (answer : Except Failure ByteArray) : Prop :=
  (s.ask n interrupt).answer = answer ∧ (s.ask n interrupt).next = s.moved answer interrupt

theorem moved_none (s : Source) (answer : Except Failure ByteArray) :
    s.moved answer none = { s with position := s.position + (Handling.bytesOf answer).length } := by
  rw [moved, Option.isSome_none, Bool.or_false]

theorem moved_some (s : Source) (answer : Except Failure ByteArray) (after : Nat) :
    s.moved answer (some after) = (s.moved answer none).cancel := by
  rw [moved_none, moved, Option.isSome_some, Bool.or_true]
  rfl

theorem not_hindered (h : ¬ s.Hindered interrupt) :
    s.cancelled = false ∧ ∀ after, interrupt = some after → s.wait ≤ after := by
  refine ⟨Bool.eq_false_iff.mpr fun hc => h (Or.inl hc), fun after hafter => ?_⟩
  exact Nat.le_of_not_lt fun hlt => h (Or.inr ⟨after, hafter, hlt⟩)

/-- An answer that needs no waiting is not interrupted. -/
theorem comesTo_at_once (h : s.read n = ⟨0, answer, s⟩) (hnone : Handling.bytesOf answer = []) :
    s.ComesTo n interrupt answer := by
  have hmoved : s.moved answer none = s := by
    rw [moved_none, hnone]
    rfl
  cases interrupt with
  | none => exact ⟨congrArg Reply.answer h, (congrArg Reply.next h).trans hmoved.symm⟩
  | some after =>
    have hask : s.ask n (some after) = ⟨0, answer, s.cancel⟩ := by
      simp only [ask, h]
      exact if_neg (Nat.not_lt_zero after)
    rw [ComesTo, hask, moved_some, hmoved]
    exact ⟨rfl, rfl⟩

theorem comesTo_closed (h : s.closed = true) : s.ComesTo n interrupt (.error .closed) :=
  comesTo_at_once (if_pos h) rfl

theorem comesTo_nothing (hopen : ¬ s.closed = true) (hn : n = 0) : s.ComesTo n interrupt (.ok ByteArray.empty) :=
  comesTo_at_once ((if_neg hopen).trans (if_pos hn)) rfl

theorem read_eq (hopen : ¬ s.closed = true) (hn : 0 < n) (hlive : s.cancelled = false) :
    s.read n = ⟨s.wait, s.answer n, s.moved (s.answer n) none⟩ := by
  rw [read, if_neg hopen, if_neg (Nat.ne_of_gt hn), if_neg (Bool.eq_false_iff.mp hlive), moved_none]
  cases s.answer n with
  | error cause => rfl
  | ok bytes => rfl

theorem comesTo_cancelled (hopen : ¬ s.closed = true) (hn : 0 < n) (h : s.Hindered interrupt) :
    s.ComesTo n interrupt (.error .cancelled) := by
  by_cases hcancelled : s.cancelled = true
  · exact comesTo_at_once ((if_neg hopen).trans ((if_neg (Nat.ne_of_gt hn)).trans (if_pos hcancelled))) rfl
  · obtain ⟨after, rfl, hwait⟩ := h.resolve_left hcancelled
    have hask : s.ask n (some after) = ⟨after, .error .cancelled, s.cancel⟩ := by
      simp only [ask, read_eq hopen hn (Bool.eq_false_iff.mpr hcancelled)]
      exact if_pos hwait
    rw [ComesTo, hask, moved_some, moved_none]
    exact ⟨rfl, rfl⟩

/-- Where nothing is in the way the source answers what there is to answer. -/
theorem comesTo_answer (hopen : ¬ s.closed = true) (hn : 0 < n) (hgo : ¬ s.Hindered interrupt) :
    s.ComesTo n interrupt (s.answer n) := by
  obtain ⟨hlive, hpatient⟩ := not_hindered hgo
  have hread := read_eq hopen hn hlive
  cases interrupt with
  | none => exact ⟨congrArg Reply.answer hread, congrArg Reply.next hread⟩
  | some after =>
    have hask : s.ask n (some after) = ⟨s.wait, s.answer n, (s.moved (s.answer n) none).cancel⟩ := by
      simp only [ask, hread]
      exact if_neg (Nat.not_lt.mpr (hpatient after rfl))
    rw [ComesTo, hask, moved_some]
    exact ⟨rfl, rfl⟩

/-! ### What there is to answer -/

/-- From its limit on a source is at the end of the file, or where it fails. -/
theorem limit_le_iff {p : Nat} :
    s.limit ≤ p ↔ s.traits.size ≤ p ∨ ∃ stop, s.traits.failAt = some stop ∧ stop ≤ p := by
  unfold limit
  cases hfail : s.traits.failAt with
  | none => simp
  | some stop =>
    show min s.traits.size stop ≤ p ↔ _
    simp only [Option.some.injEq, exists_eq_left']
    omega

theorem limit_le_size (s : Source) : s.limit ≤ s.traits.size := limit_le_iff.mpr (Or.inl (Nat.le_refl _))

theorem filter_failAt_of_lt_limit (h : s.position < s.limit) : s.traits.failAt.filter (· ≤ s.position) = none :=
  Option.filter_eq_none_iff.mpr fun stop hfail hle =>
    Nat.not_le_of_lt h (limit_le_iff.mpr (Or.inr ⟨stop, hfail, of_decide_eq_true hle⟩))

theorem filter_failAt_of_limit_le (hmore : s.position < s.traits.size) (h : s.limit ≤ s.position) :
    ∃ stop, s.traits.failAt = some stop ∧ s.traits.failAt.filter (· ≤ s.position) = some stop := by
  obtain ⟨stop, hfail, hle⟩ := (limit_le_iff.mp h).resolve_left (Nat.not_le_of_lt hmore)
  exact ⟨stop, hfail, Option.filter_eq_some_iff.mpr ⟨hfail, decide_eq_true hle⟩⟩

theorem answer_of_lt_limit (h : s.position < s.limit) : s.answer n = .ok (bytes s.position (s.next n)) := by
  have hmore : ¬ s.traits.size ≤ s.position := Nat.not_le_of_lt (Nat.lt_of_lt_of_le h s.limit_le_size)
  rw [answer, if_neg hmore, filter_failAt_of_lt_limit h]

theorem answer_of_size_le (h : s.traits.size ≤ s.position) : s.answer n = .ok ByteArray.empty := if_pos h

theorem answer_of_limit_le (hmore : s.position < s.traits.size) (h : s.limit ≤ s.position) :
    ∃ stop, s.traits.failAt = some stop ∧ s.answer n = .error (.network s!"connection reset at {stop}") := by
  obtain ⟨stop, hfail, hfails⟩ := filter_failAt_of_limit_le hmore h
  refine ⟨stop, hfail, ?_⟩
  rw [answer, if_neg (Nat.not_le_of_lt hmore), hfails]

theorem bytesOf_answer (s : Source) (n : Nat) :
    Handling.bytesOf (s.answer n) = (List.range' s.position (Handling.bytesOf (s.answer n)).length).map byte := by
  rcases Nat.lt_or_ge s.position s.limit with hlt | hge
  · have hbytes : Handling.bytesOf (.ok (bytes s.position (s.next n))) = (List.range' s.position (s.next n)).map byte :=
      toList_bytes s.position (s.next n)
    rw [answer_of_lt_limit hlt, hbytes, List.length_map, List.length_range']
  · rcases Nat.lt_or_ge s.position s.traits.size with hmore | hend
    · obtain ⟨stop, -, hanswer⟩ := answer_of_limit_le (n := n) hmore hge
      rw [hanswer]
      rfl
    · rw [answer_of_size_le hend]
      rfl

/-- Whatever a read comes to, it has the bytes of the file from where the source stands. -/
theorem exists_comesTo (s : Source) (n : Nat) (interrupt : Option Nat) :
    ∃ answer, s.ComesTo n interrupt answer ∧
      Handling.bytesOf answer = (List.range' s.position (Handling.bytesOf answer).length).map byte := by
  -- The checks in the order in which they decide.
  by_cases hclosed : s.closed = true
  · exact ⟨_, comesTo_closed hclosed, rfl⟩
  · rcases Nat.eq_zero_or_pos n with hn | hn
    · exact ⟨_, comesTo_nothing hclosed hn, rfl⟩
    · by_cases hin : s.Hindered interrupt
      · exact ⟨_, comesTo_cancelled hclosed hn hin, rfl⟩
      · exact ⟨_, comesTo_answer hclosed hn hin, bytesOf_answer s n⟩

theorem next_ask (s : Source) (n : Nat) (interrupt : Option Nat) :
    (s.ask n interrupt).next = s.moved (s.ask n interrupt).answer interrupt := by
  obtain ⟨answer, ⟨hanswer, hnext⟩, -⟩ := exists_comesTo s n interrupt
  rw [hanswer, hnext]

theorem bytesOf_ask (s : Source) (n : Nat) (interrupt : Option Nat) :
    Handling.bytesOf (s.ask n interrupt).answer =
      (List.range' s.position (Handling.bytesOf (s.ask n interrupt).answer).length).map byte := by
  obtain ⟨answer, ⟨hanswer, -⟩, hbytes⟩ := exists_comesTo s n interrupt
  rwa [hanswer]

/-! ### What a source has given -/

/-- After `calls` a source has given `out`, and is now `s`. -/
structure Stands (traits : Traits) (start : Nat) (calls : List Call) (out : List UInt8) (s : Source) : Prop where
  traits_eq : s.traits = traits
  start_eq : s.start = start
  out_eq : out = (List.range' start out.length).map byte
  position_eq : s.position = start + out.length
  closed_iff : s.closed = true ↔ .close ∈ calls
  cancelled_iff : s.cancelled = true ↔ ∃ call ∈ calls, call.cancels = true

theorem stands_fresh (traits : Traits) (start : Nat) : Stands traits start [] [] (fresh traits start) where
  traits_eq := rfl
  start_eq := rfl
  out_eq := rfl
  position_eq := rfl
  closed_iff := ⟨nofun, nofun⟩
  cancelled_iff := ⟨nofun, fun ⟨_, h, _⟩ => nomatch h⟩

theorem exists_mem_append_singleton {call : Call} :
    (∃ c ∈ calls ++ [call], c.cancels = true) ↔ (∃ c ∈ calls, c.cancels = true) ∨ call.cancels = true := by
  constructor
  · rintro ⟨c, hc, hcancels⟩
    rcases List.mem_append.mp hc with hc | hc
    · exact Or.inl ⟨c, hc, hcancels⟩
    · obtain rfl := List.mem_singleton.mp hc
      exact Or.inr hcancels
  · rintro (⟨c, hc, hcancels⟩ | hcancels)
    · exact ⟨c, List.mem_append_left _ hc, hcancels⟩
    · exact ⟨call, List.mem_append_right _ (List.mem_singleton_self call), hcancels⟩

/-- A call that gives the next bytes of the file, moves the source by them, and closes or cancels it as it says. -/
theorem Stands.next {call : Call} {given : List UInt8} {x : Source} (h : Stands traits start calls out s)
    (hfile : x.traits = s.traits ∧ x.start = s.start)
    (hgiven : given = (List.range' s.position given.length).map byte)
    (hposition : x.position = s.position + given.length)
    (hclosed : x.closed = true ↔ s.closed = true ∨ .close = call)
    (hcancelled : x.cancelled = true ↔ s.cancelled = true ∨ call.cancels = true) :
    Stands traits start (calls ++ [call]) (out ++ given) x where
  traits_eq := hfile.1.trans h.traits_eq
  start_eq := hfile.2.trans h.start_eq
  out_eq := by
    have hout := h.out_eq
    rw [h.position_eq] at hgiven
    rw [List.length_append, ← List.range'_append_1, List.map_append, ← hout, ← hgiven]
  position_eq := by rw [hposition, h.position_eq, List.length_append, Nat.add_assoc]
  closed_iff := by rw [hclosed, h.closed_iff, List.mem_append, List.mem_singleton]
  cancelled_iff := by rw [hcancelled, h.cancelled_iff, exists_mem_append_singleton]

theorem Stands.step (h : Stands traits start calls out s) (call : Call) :
    Stands traits start (calls ++ [call]) (out ++ s.given call) (s.step call) := by
  cases call with
  | read n interrupt =>
    have hnext : s.step (.read n interrupt) = s.moved (s.ask n interrupt).answer interrupt := next_ask s n interrupt
    rw [hnext]
    refine h.next ⟨rfl, rfl⟩ (bytesOf_ask s n interrupt) rfl ⟨Or.inl, fun hor => hor.resolve_right nofun⟩ ?_
    show (s.cancelled || interrupt.isSome) = true ↔ _
    rw [Bool.or_eq_true]
    rfl
  | cancel =>
    exact h.next ⟨rfl, rfl⟩ rfl rfl ⟨Or.inl, fun hor => hor.resolve_right nofun⟩ (iff_of_true rfl (Or.inr rfl))
  | close => exact h.next ⟨rfl, rfl⟩ rfl rfl (iff_of_true rfl (Or.inr rfl)) (iff_of_true rfl (Or.inr rfl))

theorem Stands.after (h : Stands traits start calls out s) (more : List Call) :
    Stands traits start (calls ++ more) (out ++ s.delivered more) (s.after more) := by
  induction more generalizing calls out s with
  | nil => rwa [List.append_nil, delivered, List.append_nil]
  | cons call more ih =>
    have hrest := ih (h.step call)
    rwa [List.append_assoc, List.append_assoc] at hrest

theorem stands_after (traits : Traits) (start : Nat) (calls : List Call) :
    Stands traits start calls ((fresh traits start).delivered calls) ((fresh traits start).after calls) :=
  (stands_fresh traits start).after calls

theorem Stands.hindered_iff (h : Stands traits start calls out s) :
    s.Hindered interrupt ↔ (∃ call ∈ calls, call.cancels = true) ∨
      ∃ after, interrupt = some after ∧ after < min traits.delay Duration.longestWait := by
  rw [Hindered, wait, h.cancelled_iff, h.traits_eq]

theorem size_next (s : Source) (n : Nat) :
    (bytes s.position (s.next n)).size = min (min n (max s.traits.chunk 1)) (s.limit - s.position) :=
  Bytes.size_ofFn _ _

/-- However a new source is used: what it has given is the file from its start to where it stands, and a read moves it
    by the bytes of the answer. Once closed it fails with that. Asked for nothing it gives nothing, and cancelled, before
    the read or while it waits, it fails with that. Else it gives at least one byte, but no more than are asked for, come
    at once or are left before its limit; from there on it is at the end of the file, or fails. -/
theorem gives_its_range (traits : Traits) (start : Nat) (calls : List Call) :
    let s := (fresh traits start).after calls
    let out := (fresh traits start).delivered calls
    s.traits = traits ∧ s.start = start ∧
      out = (List.range' start out.length).map byte ∧ s.position = start + out.length ∧
      ∀ n interrupt,
        (s.ask n interrupt).next.position = s.position + (Handling.bytesOf (s.ask n interrupt).answer).length ∧
        (.close ∈ calls → (s.ask n interrupt).answer = .error .closed) ∧
        (.close ∉ calls → n = 0 → (s.ask n interrupt).answer = .ok ByteArray.empty) ∧
        (.close ∉ calls → 0 < n →
          ((∃ call ∈ calls, call.cancels = true) ∨
            ∃ after, interrupt = some after ∧ after < min traits.delay Duration.longestWait) →
          (s.ask n interrupt).answer = .error .cancelled) ∧
        (.close ∉ calls → 0 < n →
          ¬ ((∃ call ∈ calls, call.cancels = true) ∨
            ∃ after, interrupt = some after ∧ after < min traits.delay Duration.longestWait) →
          (s.position < s.limit → ∃ bytes, (s.ask n interrupt).answer = .ok bytes ∧
            1 ≤ bytes.size ∧ bytes.size ≤ min n (max traits.chunk 1) ∧ s.position + bytes.size ≤ s.limit) ∧
          (traits.size ≤ s.position → (s.ask n interrupt).answer = .ok ByteArray.empty) ∧
          (s.limit ≤ s.position → s.position < traits.size → ∃ stop, traits.failAt = some stop ∧
            (s.ask n interrupt).answer = .error (.network s!"connection reset at {stop}"))) := by
  intro s out
  have hstands : Stands traits start calls out s := stands_after traits start calls
  refine ⟨hstands.traits_eq, hstands.start_eq, hstands.out_eq, hstands.position_eq, fun n interrupt => ?_⟩
  rw [← hstands.closed_iff, ← hstands.hindered_iff, ← hstands.traits_eq]
  refine ⟨congrArg position (next_ask s n interrupt), fun hclosed => (comesTo_closed hclosed).1,
    fun hopen hn => (comesTo_nothing hopen hn).1, fun hopen hn hin => (comesTo_cancelled hopen hn hin).1,
    fun hopen hn hgo => ?_⟩
  rw [(comesTo_answer hopen hn hgo).1]
  refine ⟨fun hlt => ⟨_, answer_of_lt_limit hlt, ?_⟩, fun hend => answer_of_size_le hend,
    fun hlimit hmore => answer_of_limit_le hmore hlimit⟩
  rw [size_next]
  omega

end Source
end Pattern
end ReadAhead
