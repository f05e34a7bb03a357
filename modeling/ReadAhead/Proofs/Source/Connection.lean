import ReadAhead.Source.Connection
import ReadAhead.Source.Use

/-! One request for each connection. What a read of a connection comes to is said once (`Reads`, and `Awaits` for
    the wait for more of a body). From it follows what is known of a connection that has handed out so many bytes
    (`Standing`): its request was made once at most, and those bytes, the ones that came in after them and the rest
    of the body are the body of the answer. A connection that has failed has nothing left to hand out, and never gets
    more (`Barren`). -/

namespace ReadAhead

/-- The bytes of a body. -/
def Response.bytes (response : Response) : List UInt8 := response.body.flatMap fun piece => piece.bytes.data.toList

namespace Connection
variable {network : Network} {c d : Connection} {n : Nat} {answer : Except Failure ByteArray} {response : Response}

def handling (network : Network) : Handling Connection := ⟨read network, cancel, close⟩

/-- A connection that has not made its request. -/
def unsent (request : Request) : Connection := ⟨request, false, .idle, ByteArray.empty, 0⟩

theorem eq_unsent_of_fresh {url : String} {start : Nat} {settings : ConnectionSettings}
    (h : fresh url start settings = .ok c) : ∃ address, c = unsent ⟨address, start, settings⟩ := by
  unfold fresh at h
  split at h
  · cases h
  · split at h
    · obtain rfl := Except.ok.inj h
      exact ⟨_, rfl⟩
    · cases h

/-! ### What a read comes to -/

/-- What waiting for more of a body comes to. -/
inductive Awaits (c : Connection) (response : Response) (n : Nat) : Except Failure ByteArray → Connection → Prop
  | cancelled (hc : c.cancelled = true) : Awaits c response n (.error .cancelled) { c with state := .streaming response }
  | came {bytes : ByteArray} {body : List Piece} (hc : c.cancelled = false) (hpos : 0 < bytes.size)
    (hbytes : response.bytes = bytes.data.toList ++ { response with body }.bytes) :
    Awaits c response n (.ok (bytes.extract 0 (min n bytes.size)))
      { c with pending := bytes.extract (min n bytes.size) bytes.size, state := .streaming { response with body } }
  | ended (hc : c.cancelled = false) (hbytes : response.bytes = []) (hwhole : response.broken = none) :
    Awaits c response n (.ok ByteArray.empty) { c with state := .finished }
  | broken {fault : Fault} (hc : c.cancelled = false) :
    Awaits c response n (.error (c.failureOf fault)) { c with state := .failed }

/-- Pieces without bytes do not show. -/
theorem awaits_go (hc : c.cancelled = false) (body : List Piece) (delay : Nat)
    (hbody : response.bytes = { response with body }.bytes) :
    Awaits c response n (await.go n c response body delay).answer (await.go n c response body delay).next := by
  induction body generalizing delay with
  | nil =>
    rw [await.go]
    split
    · exact .ended hc hbody ‹_›
    · exact .broken hc
  | cons piece body ih =>
    have hcons : { response with body := piece :: body }.bytes =
        piece.bytes.data.toList ++ { response with body }.bytes := rfl
    rw [hcons] at hbody
    rw [await.go]
    split
    · rename_i hempty
      have hnil : piece.bytes.data.toList = [] := by
        rw [← List.length_eq_zero_iff, Array.length_toList, ByteArray.size_data, hempty]
      rw [hnil, List.nil_append] at hbody
      exact ih _ hbody
    · exact .came hc (Nat.pos_of_ne_zero ‹_›) hbody

theorem awaits_await (c : Connection) (response : Response) (delay n : Nat) :
    Awaits c response n (c.await response delay n).answer (c.await response delay n).next := by
  unfold await
  split
  · exact .cancelled ‹_›
  · exact awaits_go (by simpa using ‹¬ c.cancelled = true›) response.body delay rfl

/-- What a read of at most `n` bytes comes to. -/
inductive Reads (network : Network) (c : Connection) (n : Nat) : Except Failure ByteArray → Connection → Prop
  | closed (hs : c.state = .closed) : Reads network c n (.error .closed) c
  | nothing (hs : c.state ≠ .closed) (hn : n = 0) : Reads network c n (.ok ByteArray.empty) c
  | handed (hs : c.state ≠ .closed) (hn : 0 < n) (hpending : 0 < c.pending.size) :
    Reads network c n (.ok (c.pending.extract 0 (min n c.pending.size)))
      { c with pending := c.pending.extract (min n c.pending.size) c.pending.size }
  | hindered {failure : Failure} (hs : c.state = .idle) (hn : 0 < n) :
    Reads network c n (.error failure) { c with state := .failed }
  | refused {failure : Failure} (hs : c.state = .idle) (hn : 0 < n) (hgo : c.cancelled = false) :
    Reads network c n (.error failure) { c.begun with state := .failed }
  | begun {response : Response} {answer : Except Failure ByteArray} {d : Connection} (hs : c.state = .idle) (hn : 0 < n)
    (hgo : c.cancelled = false) (hsent : (network.send c.request).outcome = .ok response)
    (hstatus : response.status = partialContent) (h : Awaits c.begun response n answer d) : Reads network c n answer d
  | awaited {rest : Response} {answer : Except Failure ByteArray} {d : Connection} (hs : c.state = .streaming rest)
    (hn : 0 < n) (hpending : c.pending.size = 0) (h : Awaits c rest n answer d) : Reads network c n answer d
  | finished (hs : c.state = .finished) (hn : 0 < n) : Reads network c n (.ok ByteArray.empty) c
  | failed {failure : Failure} (hs : c.state = .failed) (hn : 0 < n) : Reads network c n (.error failure) c

theorem cancelled_of_hindrance? (h : c.hindrance? = none) : c.cancelled = false := by
  unfold hindrance? at h
  cases hc : c.cancelled with
  | false => rfl
  | true =>
    rw [hc] at h
    split at h <;> cases h

theorem bodyOf_eq_ok {outcome : Except Fault Response} (h : c.bodyOf outcome = .ok response) :
    outcome = .ok response ∧ response.status = partialContent := by
  unfold bodyOf at h
  split at h
  · cases h
  · split at h
    · obtain rfl := Except.ok.inj h
      exact ⟨rfl, ‹_›⟩
    · cases h

theorem reads_read (network : Network) (c : Connection) (n : Nat) :
    Reads network c n (c.read network n).answer (c.read network n).next := by
  unfold read
  split
  · rename_i hclosed
    exact .closed (by simpa [isClosed] using hclosed)
  rename_i hopen
  have hopen : c.state ≠ .closed := by simpa [isClosed] using hopen
  split
  · exact .nothing hopen ‹_›
  rename_i hn
  have hn : 0 < n := Nat.pos_of_ne_zero hn
  split
  · exact .handed hopen hn ‹_›
  rename_i hpending
  have hpending : c.pending.size = 0 := Nat.eq_zero_of_not_pos hpending
  split
  · rename_i hs
    split
    · exact .hindered hs hn
    · rename_i hgo
      have hgo := cancelled_of_hindrance? hgo
      unfold receive
      split
      · exact .refused hs hn hgo
      · rename_i response hbody
        obtain ⟨hsent, hstatus⟩ := bodyOf_eq_ok hbody
        exact .begun hs hn hgo hsent hstatus (awaits_await c.begun response _ n)
  · rename_i rest hs
    exact .awaited hs hn hpending (awaits_await c rest 0 n)
  · exact .finished ‹_› hn
  · exact .failed ‹_› hn
  · exact absurd ‹_› hopen

/-! ### What is known of a connection -/

/-- The origin answers the request with a part of the file. -/
def Grants (network : Network) (request : Request) (whole : Response) : Prop :=
  (network.send request).outcome = .ok whole ∧ whole.status = partialContent

/-- The bytes begin the body of such an answer, if there are any. -/
def Begins (network : Network) (request : Request) (out : List UInt8) : Prop :=
  out = [] ∨ ∃ whole, Grants network request whole ∧ out <+: whole.bytes

/-- What is known of a connection that has handed out `out`. -/
def Standing (network : Network) (request : Request) (out : List UInt8) (c : Connection) : Prop :=
  c.request = request ∧ match c.state with
    | .idle => c.requests = 0 ∧ c.pending.size = 0 ∧ out = []
    | .streaming rest => c.requests = 1 ∧ ∃ whole, Grants network request whole ∧
        out ++ (c.pending.data.toList ++ rest.bytes) = whole.bytes ∧ rest.broken = whole.broken
    | .finished => c.requests = 1 ∧ c.pending.size = 0 ∧
        ∃ whole, Grants network request whole ∧ out = whole.bytes ∧ whole.broken = none
    | .failed | .closed => c.requests ≤ 1 ∧ c.pending.size = 0 ∧ Begins network request out

section Standing
variable {request : Request} {out : List UInt8}

theorem standing_unsent (network : Network) (request : Request) : Standing network request [] (unsent request) :=
  ⟨rfl, rfl, rfl, rfl⟩

theorem Standing.idle (h : Standing network request out c) (hs : c.state = .idle) :
    c.requests = 0 ∧ c.pending.size = 0 ∧ out = [] := by
  obtain ⟨-, h⟩ := h
  simpa only [hs] using h

theorem Standing.streaming {rest : Response} (h : Standing network request out c) (hs : c.state = .streaming rest) :
    c.requests = 1 ∧ ∃ whole, Grants network request whole ∧
      out ++ (c.pending.data.toList ++ rest.bytes) = whole.bytes ∧ rest.broken = whole.broken := by
  obtain ⟨-, h⟩ := h
  simpa only [hs] using h

theorem Standing.requests_le_one (h : Standing network request out c) : c.requests ≤ 1 := by
  obtain ⟨-, h⟩ := h
  split at h
  · omega
  · omega
  · omega
  · exact h.1
  · exact h.1

theorem Standing.begins (h : Standing network request out c) : Begins network request out := by
  obtain ⟨-, h⟩ := h
  split at h
  · exact Or.inl h.2.2
  · obtain ⟨-, whole, hgrants, hbytes, -⟩ := h
    exact Or.inr ⟨whole, hgrants, hbytes ▸ List.prefix_append _ _⟩
  · obtain ⟨-, -, whole, hgrants, rfl, -⟩ := h
    exact Or.inr ⟨whole, hgrants, List.prefix_refl _⟩
  · exact h.2.2
  · exact h.2.2

theorem Awaits.standing {rest whole : Response} (hrequest : c.request = request) (honce : c.requests = 1)
    (hpending : c.pending.size = 0) (hgrants : Grants network request whole) (hbytes : out ++ rest.bytes = whole.bytes)
    (hbroken : rest.broken = whole.broken) (h : Awaits c rest n answer d) :
    Standing network request (out ++ Handling.bytesOf answer) d := by
  cases h with
  | cancelled =>
    refine ⟨hrequest, honce, whole, hgrants, ?_, hbroken⟩
    show out ++ [] ++ (c.pending.data.toList ++ rest.bytes) = whole.bytes
    rw [Bytes.toList_eq_nil hpending, List.append_nil, List.nil_append, hbytes]
  | @came bytes body _ hpos hsplit =>
    refine ⟨hrequest, honce, whole, hgrants, ?_, hbroken⟩
    show out ++ (bytes.extract 0 (min n bytes.size)).data.toList ++
      ((bytes.extract (min n bytes.size) bytes.size).data.toList ++ { rest with body }.bytes) = whole.bytes
    rw [List.append_assoc, ← List.append_assoc (bytes.extract 0 _).data.toList,
      Bytes.toList_split (Nat.min_le_right _ _), ← hsplit, hbytes]
  | ended _ hnil hwhole =>
    refine ⟨hrequest, honce, hpending, whole, hgrants, ?_, hbroken ▸ hwhole⟩
    rw [← hbytes, hnil]
    rfl
  | broken =>
    refine ⟨hrequest, Nat.le_of_eq honce, hpending, Or.inr ⟨whole, hgrants, ?_⟩⟩
    show out ++ [] <+: whole.bytes
    rw [List.append_nil, ← hbytes]
    exact List.prefix_append _ _

/-- Only a connection whose body comes in holds bytes back. -/
theorem Standing.exists_rest (h : Standing network request out c) (hpending : 0 < c.pending.size) :
    ∃ rest, c.state = .streaming rest := by
  obtain ⟨-, h⟩ := h
  split at h
  · omega
  · exact ⟨_, ‹_›⟩
  · omega
  · omega
  · omega

theorem Standing.reads (h : Standing network request out c) (hr : Reads network c n answer d) :
    Standing network request (out ++ Handling.bytesOf answer) d := by
  have hsame : Standing network request (out ++ []) c := by rwa [List.append_nil]
  cases hr with
  | closed => exact hsame
  | nothing => exact hsame
  | handed _ _ hpending =>
    obtain ⟨rest, hs⟩ := h.exists_rest hpending
    obtain ⟨honce, whole, hgrants, hbytes, hbroken⟩ := h.streaming hs
    refine ⟨h.1, ?_⟩
    simp only [hs]
    refine ⟨honce, whole, hgrants, ?_, hbroken⟩
    show out ++ (c.pending.extract 0 _).data.toList ++ ((c.pending.extract _ c.pending.size).data.toList ++ rest.bytes) =
      whole.bytes
    rw [List.append_assoc, ← List.append_assoc (c.pending.extract 0 _).data.toList,
      Bytes.toList_split (Nat.min_le_right _ _), hbytes]
  | hindered hs =>
    obtain ⟨hnone, hpending, rfl⟩ := h.idle hs
    exact ⟨h.1, h.requests_le_one, hpending, Or.inl rfl⟩
  | refused hs =>
    obtain ⟨hnone, hpending, rfl⟩ := h.idle hs
    exact ⟨h.1, Nat.le_of_eq (congrArg (· + 1) hnone), hpending, Or.inl rfl⟩
  | begun hs _ _ hsent hstatus ha =>
    obtain ⟨hnone, hpending, rfl⟩ := h.idle hs
    exact ha.standing (c := c.begun) h.1 (congrArg (· + 1) hnone) hpending ⟨h.1 ▸ hsent, hstatus⟩ rfl rfl
  | awaited hs _ hpending ha =>
    obtain ⟨honce, whole, hgrants, hbytes, hbroken⟩ := h.streaming hs
    rw [Bytes.toList_eq_nil hpending, List.nil_append] at hbytes
    exact ha.standing h.1 honce hpending hgrants hbytes hbroken
  | finished => exact hsame
  | failed => exact hsame

theorem Standing.step (h : Standing network request out c) (use : Use) :
    Standing network request (out ++ (handling network).given c use) ((handling network).step c use) := by
  cases use with
  | read n => exact h.reads (reads_read network c n)
  | cancel =>
    show Standing network request (out ++ []) c.cancel
    rw [List.append_nil]
    exact h
  | close =>
    show Standing network request (out ++ []) c.close
    rw [List.append_nil]
    exact ⟨h.1, h.requests_le_one, rfl, h.begins⟩

theorem standing_after (network : Network) (request : Request) (uses : List Use) :
    Standing network request ((handling network).delivered uses (unsent request))
      ((handling network).after uses (unsent request)) :=
  Handling.delivered_keeps (standing_unsent network request) (fun _ _ use h => h.step use) uses

end Standing

/-! ### No bytes -/

theorem size_extract_min_pos {bytes : ByteArray} (hn : 0 < n) (hpos : 0 < bytes.size) :
    0 < (bytes.extract 0 (min n bytes.size)).size := by
  rw [ByteArray.size_extract]
  omega

/-- No bytes are an answer at the end of a whole body only. -/
theorem Awaits.whole {rest : Response} {bytes : ByteArray} (h : Awaits c rest n (.ok bytes) d) (hn : 0 < n)
    (hempty : bytes.size = 0) : rest.bytes = [] ∧ rest.broken = none := by
  cases h with
  | came _ hpos _ =>
    have hsize := size_extract_min_pos hn hpos
    omega
  | ended _ hbytes hwhole => exact ⟨hbytes, hwhole⟩

theorem Standing.whole {request : Request} {out : List UInt8} {bytes : ByteArray} (h : Standing network request out c)
    (hr : Reads network c n (.ok bytes) d) (hn : 0 < n) (hempty : bytes.size = 0) :
    ∃ whole, Grants network request whole ∧ whole.broken = none ∧ out = whole.bytes := by
  cases hr with
  | nothing _ hzero => omega
  | handed _ _ hpending =>
    have hsize := size_extract_min_pos hn hpending
    omega
  | @begun response _ _ hs _ _ hsent hstatus ha =>
    obtain ⟨-, -, rfl⟩ := h.idle hs
    obtain ⟨hnil, hwhole⟩ := ha.whole hn hempty
    exact ⟨response, ⟨h.1 ▸ hsent, hstatus⟩, hwhole, hnil.symm⟩
  | awaited hs _ hpending ha =>
    obtain ⟨-, whole, hgrants, hbytes, hbroken⟩ := h.streaming hs
    obtain ⟨hnil, hwhole⟩ := ha.whole hn hempty
    rw [Bytes.toList_eq_nil hpending, hnil, List.append_nil, List.append_nil] at hbytes
    exact ⟨whole, hgrants, hbroken ▸ hwhole, hbytes⟩
  | finished hs =>
    obtain ⟨-, h⟩ := h
    simp only [hs] at h
    obtain ⟨-, -, whole, hgrants, hout, hwhole⟩ := h
    exact ⟨whole, hgrants, hwhole, hout⟩

/-! ### After a failure -/

/-- The connection hands out nothing any more, and nothing will come in. -/
def Barren (c : Connection) : Prop :=
  c.pending.size = 0 ∧ match c.state with
    | .failed | .closed => True
    | .streaming _ => c.cancelled = true
    | .idle | .finished => False

theorem Awaits.barren {rest : Response} {cause : Failure} (h : Awaits c rest n (.error cause) d)
    (hpending : c.pending.size = 0) : Barren d := by
  cases h with
  | cancelled hc => exact ⟨hpending, hc⟩
  | broken => exact ⟨hpending, trivial⟩

theorem Standing.barren {request : Request} {out : List UInt8} {cause : Failure} (h : Standing network request out c)
    (hr : Reads network c n (.error cause) d) : Barren d := by
  cases hr with
  | closed hs =>
    obtain ⟨-, h⟩ := h
    simp only [hs] at h
    exact ⟨h.2.1, by simp only [hs]⟩
  | hindered hs => exact ⟨(h.idle hs).2.1, trivial⟩
  | refused hs => exact ⟨(h.idle hs).2.1, trivial⟩
  | begun hs _ _ _ _ ha => exact ha.barren (h.idle hs).2.1
  | awaited _ _ hpending ha => exact ha.barren hpending
  | failed hs =>
    obtain ⟨-, h⟩ := h
    simp only [hs] at h
    exact ⟨h.2.1, by simp only [hs]⟩

theorem Barren.reads (h : Barren c) (hr : Reads network c n answer d) :
    Barren d ∧ (0 < n → ∃ cause, answer = .error cause) := by
  obtain ⟨hpending, hstate⟩ := h
  have hsame : Barren c := ⟨hpending, hstate⟩
  cases hr with
  | closed => exact ⟨hsame, fun _ => ⟨_, rfl⟩⟩
  | nothing _ hzero => exact ⟨hsame, fun hn => by omega⟩
  | handed _ _ hpos => omega
  | hindered => exact ⟨⟨hpending, trivial⟩, fun _ => ⟨_, rfl⟩⟩
  | refused => exact ⟨⟨hpending, trivial⟩, fun _ => ⟨_, rfl⟩⟩
  | begun hs => simp [hs] at hstate
  | awaited hs _ _ ha =>
    simp only [hs] at hstate
    cases ha with
    | cancelled hc => exact ⟨⟨hpending, hc⟩, fun _ => ⟨_, rfl⟩⟩
    | came hgo => simp [hstate] at hgo
    | ended hgo => simp [hstate] at hgo
    | broken => exact ⟨⟨hpending, trivial⟩, fun _ => ⟨_, rfl⟩⟩
  | finished hs => simp [hs] at hstate
  | failed => exact ⟨hsame, fun _ => ⟨_, rfl⟩⟩

theorem Barren.step (h : Barren c) (use : Use) : Barren ((handling network).step c use) := by
  cases use with
  | read n => exact (h.reads (reads_read network c n)).1
  | cancel =>
    obtain ⟨hpending, hstate⟩ := h
    refine ⟨hpending, ?_⟩
    show match c.state with
      | .failed | .closed => True
      | .streaming _ => true = true
      | .idle | .finished => False
    split <;> simp_all
  | close => exact ⟨rfl, trivial⟩

/-! ### After the end -/

theorem Awaits.steady {rest : Response} (h : Awaits c rest n answer d) :
    d.cancelled = c.cancelled ∧ d.requests = c.requests := by cases h <;> exact ⟨rfl, rfl⟩

theorem Reads.cancelled (h : Reads network c n answer d) : d.cancelled = c.cancelled := by
  cases h with
  | begun _ _ _ _ _ ha => exact ha.steady.1
  | awaited _ _ _ ha => exact ha.steady.1
  | _ => rfl

/-- A read makes a request only if it asks for bytes of a connection that is not cancelled. -/
theorem Reads.requests (h : Reads network c n answer d) (hnone : n = 0 ∨ c.cancelled = true) :
    d.requests = c.requests := by
  have hno : 0 < n → c.cancelled = false → False := by
    intro hn hgo
    rcases hnone with rfl | hc
    · omega
    · rw [hgo] at hc
      cases hc
  cases h with
  | refused _ hn hgo => exact (hno hn hgo).elim
  | begun _ hn hgo => exact (hno hn hgo).elim
  | awaited _ _ _ ha => exact ha.steady.2
  | _ => rfl

theorem Reads.of_closed (h : Reads network c n answer d) (hs : c.state = .closed) : answer = .error .closed ∧ d = c := by
  cases h with
  | closed => exact ⟨rfl, rfl⟩
  | nothing hopen => exact absurd hs hopen
  | handed hopen => exact absurd hs hopen
  | hindered hs' => exact nomatch hs.symm.trans hs'
  | refused hs' => exact nomatch hs.symm.trans hs'
  | begun hs' => exact nomatch hs.symm.trans hs'
  | awaited hs' => exact nomatch hs.symm.trans hs'
  | finished hs' => exact nomatch hs.symm.trans hs'
  | failed hs' => exact nomatch hs.symm.trans hs'

theorem cancelled_step (hc : c.cancelled = true) (use : Use) : ((handling network).step c use).cancelled = true := by
  cases use with
  | read n => exact (reads_read network c n).cancelled.trans hc
  | cancel => rfl
  | close => rfl

theorem state_step_of_closed (hs : c.state = .closed) (use : Use) : ((handling network).step c use).state = .closed := by
  cases use with
  | read n =>
    have hsame := ((reads_read network c n).of_closed hs).2
    show (c.read network n).next.state = .closed
    rw [hsame, hs]
  | cancel => exact hs
  | close => rfl

/-- What a use brings about and every use keeps, holds after all uses that it is among. -/
theorem after_of_mem {P : Connection → Prop} {use : Use} {uses : List Use} (huse : ∀ x, P ((handling network).step x use))
    (hstep : ∀ x u, P x → P ((handling network).step x u)) (hmem : use ∈ uses) (c : Connection) :
    P ((handling network).after uses c) := by
  obtain ⟨before, later, rfl⟩ := List.append_of_mem hmem
  rw [Handling.after_append]
  exact Handling.after_keeps (huse _) fun x u _ => hstep x u

theorem cancelled_after {uses : List Use} (h : .cancel ∈ uses ∨ .close ∈ uses) (c : Connection) :
    ((handling network).after uses c).cancelled = true := by
  rcases h with h | h
  · exact after_of_mem (P := fun x => x.cancelled = true) (fun _ => rfl) (fun _ u hx => cancelled_step hx u) h c
  · exact after_of_mem (P := fun x => x.cancelled = true) (fun _ => rfl) (fun _ u hx => cancelled_step hx u) h c

theorem requests_after {uses : List Use} (hnone : (∀ n, .read n ∈ uses → n = 0) ∨ c.cancelled = true) :
    ((handling network).after uses c).requests = c.requests := by
  have hkeeps : ((handling network).after uses c).requests = c.requests ∧
      (c.cancelled = true → ((handling network).after uses c).cancelled = true) := by
    refine Handling.after_keeps
      (P := fun x : Connection => x.requests = c.requests ∧ (c.cancelled = true → x.cancelled = true)) ⟨rfl, id⟩
      fun x use huse hx => ?_
    obtain ⟨hrequests, hcancelled⟩ := hx
    refine ⟨?_, fun hc => cancelled_step (hcancelled hc) use⟩
    cases use with
    | read n =>
      refine ((reads_read network x n).requests ?_).trans hrequests
      exact hnone.imp (fun hempty => hempty n huse) hcancelled
    | cancel => exact hrequests
    | close => exact hrequests
  exact hkeeps.1

/-- However a new connection is used: it makes one request at most, none before bytes are asked for, and none once it
    is cancelled or closed; what it hands out begins the body of an answer with status 206; no bytes where some are
    asked for mean that the body came to its end and all of it was handed out; once a read has failed, every read that
    asks for bytes fails; and once it is closed every read fails with that. -/
theorem makes_one_request (network : Network) {url : String} {start : Nat} {settings : ConnectionSettings}
    (hfresh : fresh url start settings = .ok c) (uses : List Use) (hd : d = (handling network).after uses c) :
    d.requests ≤ 1 ∧
      ((∀ n, .read n ∈ uses → n = 0) → d.requests = 0) ∧
      (.cancel ∈ uses ∨ .close ∈ uses → ∀ more, ((handling network).after more d).requests = d.requests) ∧
      ((handling network).delivered uses c = [] ∨
        ∃ whole, Grants network c.request whole ∧ (handling network).delivered uses c <+: whole.bytes) ∧
      (∀ n bytes, 0 < n → (d.read network n).answer = .ok bytes → bytes.size = 0 →
        ∃ whole, Grants network c.request whole ∧ whole.broken = none ∧
          (handling network).delivered uses c = whole.bytes) ∧
      (∀ n cause, (d.read network n).answer = .error cause → ∀ more m, 0 < m →
        ∃ cause', (((handling network).after more (d.read network n).next).read network m).answer = .error cause') ∧
      (.close ∈ uses → ∀ n, (d.read network n).answer = .error .closed) := by
  obtain ⟨address, hunsent⟩ := eq_unsent_of_fresh hfresh
  have hstanding : Standing network c.request ((handling network).delivered uses c) d := by
    rw [hd, hunsent]
    exact standing_after network _ uses
  refine ⟨hstanding.requests_le_one, fun hempty => ?_, fun hend more => ?_, hstanding.begins, fun n bytes hn hok hzero => ?_,
    fun n cause herror more m hm => ?_, fun hclose n => ?_⟩
  · rw [hd, requests_after (Or.inl hempty), hunsent]
    rfl
  · exact requests_after (Or.inr (hd ▸ cancelled_after hend c))
  · have hread := reads_read network d n
    rw [hok] at hread
    exact hstanding.whole hread hn hzero
  · have hread := reads_read network d n
    rw [herror] at hread
    have hbarren : Barren ((handling network).after more (d.read network n).next) :=
      Handling.after_keeps (hstanding.barren hread) fun x use _ hx => hx.step use
    exact (hbarren.reads (reads_read network _ m)).2 hm
  · have hclosed : d.state = .closed :=
      hd ▸ after_of_mem (P := fun x => x.state = .closed) (fun _ => rfl) (fun _ u hx => state_step_of_closed hx u) hclose c
    exact ((reads_read network d n).of_closed hclosed).1

/-- An origin of three bytes, which come in two pieces with an empty one in between. -/
def threeBytes : Network :=
  ⟨fun _ => ⟨0, .ok ⟨partialContent, [⟨0, ⟨#[1, 2]⟩⟩, ⟨0, ByteArray.empty⟩, ⟨0, ⟨#[3]⟩⟩], 0, none⟩⟩⟩

/-- A connection to it, all that came in being handed out. -/
def awaiting (request : Request) (body : List Piece) : Connection :=
  ⟨request, false, .streaming ⟨partialContent, body, 0, none⟩, ByteArray.empty, 1⟩

theorem read_unsent (network : Network) (address : Url) {n : Nat} (hn : 0 < n) :
    (unsent ⟨address, 0, .standard⟩).read network n =
      (unsent ⟨address, 0, .standard⟩).begun.receive (network.send ⟨address, 0, .standard⟩) n := by
  have hagent : Request.isValue ConnectionSettings.standard.userAgent = true := by decide +kernel
  have hheaders : Request.isSendable ⟨address, 0, .standard⟩ = true := by
    have hrange : Request.isName "Range" = true ∧ Request.isValue (Request.range 0) = true := by decide +kernel
    show (Request.isName "Range" && Request.isValue (Request.range 0)) && true = true
    rw [hrange.1, hrange.2]
    rfl
  have hgo : (unsent ⟨address, 0, .standard⟩).hindrance? = none := by simp [hindrance?, unsent, hagent, hheaders]
  have hidle : (unsent ⟨address, 0, .standard⟩).state = .idle := rfl
  have hpending : ¬ 0 < (unsent ⟨address, 0, .standard⟩).pending.size := Nat.not_lt_zero _
  unfold Connection.read
  rw [if_neg (Nat.ne_of_gt hn), if_neg hpending]
  simp only [hidle, hgo]
  rfl

theorem three_bytes_in_one_request : ∃ c, fresh "http://origin/file" 0 .standard = .ok c ∧
    ((handling threeBytes).after [.read 2, .read 4] c).requests ≤ 1 ∧
    (handling threeBytes).delivered [.read 2, .read 4] c = [1, 2, 3] := by
  have hsome : (fresh "http://origin/file" 0 .standard).toOption.isSome = true := by decide +kernel
  cases hfresh : fresh "http://origin/file" 0 .standard with
  | error cause =>
    rw [hfresh] at hsome
    cases hsome
  | ok c =>
    obtain ⟨honce, -, -, -, hwhole, -⟩ := makes_one_request threeBytes hfresh [.read 2, .read 4] rfl
    obtain ⟨address, rfl⟩ := eq_unsent_of_fresh hfresh
    have hfirst : ((unsent ⟨address, 0, .standard⟩).read threeBytes 2).next =
        awaiting ⟨address, 0, .standard⟩ [⟨0, ByteArray.empty⟩, ⟨0, ⟨#[3]⟩⟩] := by
      rw [read_unsent threeBytes address Nat.two_pos]
      rfl
    have hsecond : (handling threeBytes).after [.read 2, .read 4] (unsent ⟨address, 0, .standard⟩) =
        awaiting ⟨address, 0, .standard⟩ [] := by
      show (((unsent ⟨address, 0, .standard⟩).read threeBytes 2).next.read threeBytes 4).next = _
      rw [hfirst]
      rfl
    have hover : (((handling threeBytes).after [.read 2, .read 4] (unsent ⟨address, 0, .standard⟩)).read threeBytes
        1).answer = .ok ByteArray.empty := by
      rw [hsecond]
      rfl
    obtain ⟨whole, ⟨hsent, -⟩, -, hbytes⟩ := hwhole 1 _ Nat.one_pos hover rfl
    obtain rfl := Except.ok.inj hsent
    exact ⟨_, rfl, honce, hbytes⟩

end Connection
end ReadAhead
