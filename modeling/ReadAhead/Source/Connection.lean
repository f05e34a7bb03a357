import ReadAhead.Bytes
import ReadAhead.Settings
import ReadAhead.Source
import ReadAhead.Url
import ReadAhead.Word

/-! Sources over HTTP. A connection is one request for a file from an offset on. The request is made when
    the first byte is asked for, and its body is handed out as it comes. A connection is never used for a
    second request. -/

namespace ReadAhead

/-- The request that a connection makes. -/
structure Request where
  url : Url
  /-- The offset that the body is asked for from. -/
  start : Nat
  settings : ConnectionSettings

namespace Request

def range (start : Nat) : String := s!"bytes={start}-"

/-- The headers of the request, in order, the range first. -/
def headers (r : Request) : List (String × String) := ("Range", range r.start) :: r.settings.headers

/-- Whether a byte may stand in the value of a header: no control but the tab. -/
def isValueByte (b : UInt8) : Bool := (32 ≤ b.toNat && b.toNat != 127) || b.toNat == 9

/-- Whether a text can be the value of a header. -/
def isValue (s : String) : Bool := s.toUTF8.data.all isValueByte

/-- Whether a character may stand in the name of a header. -/
def isNameChar (c : Char) : Bool :=
  c.isAlphanum || ['!', '#', '$', '%', '&', '\x27', '*', '+', '-', '.', '^', '_', '\x60', '|', '~'].contains c

/-- Whether a text can be the name of a header. -/
def isName (s : String) : Bool := !s.isEmpty && s.toList.all isNameChar

/-- Whether HTTP allows the headers. -/
def isSendable (r : Request) : Bool := r.headers.all fun (name, value) => isName name && isValue value

end Request

/-- What goes wrong on the way to an origin. -/
inductive Fault
  /-- The time for the request is over. -/
  | timedOut
  | broken (detail : String)
  deriving DecidableEq, Repr

/-- A part of a body, after the wait for it. -/
structure Piece where
  delay : Nat
  bytes : ByteArray
  deriving DecidableEq

/-- The answer of an origin. -/
structure Response where
  status : Nat
  body : List Piece
  /-- The wait for the end of the body. -/
  endDelay : Nat
  /-- What breaks the body off, if it does not come to its end. -/
  broken : Option Fault
  deriving DecidableEq

/-- What becomes of a request. -/
structure Sent where
  delay : Nat
  outcome : Except Fault Response

/-- The way to the origins. -/
structure Network where
  send : Request → Sent

/-- A network on which nothing is reached. -/
def Network.unreachable : Network := ⟨fun _ => ⟨0, .error (.broken "unreachable")⟩⟩

/-- Where a connection is with its request. -/
inductive Connection.State
  | idle
  /-- The body comes in. -/
  | streaming (rest : Response)
  | finished
  | failed
  /-- Given up by its owner. -/
  | closed
  deriving DecidableEq

/-- One request for a file from an offset on. -/
structure Connection where
  request : Request
  cancelled : Bool
  state : Connection.State
  /-- Bytes that came in and are not handed out yet. -/
  pending : ByteArray
  /-- How many requests have been made. -/
  requests : Nat

namespace Connection

/-- The status of an answer to a request for a range. -/
def partialContent : Nat := 206

/-- A connection that has sent nothing. Only URLs of the web are taken. -/
def fresh (url : String) (start : Nat) (settings : ConnectionSettings) : Except Failure Connection :=
  match Url.parse url with
  | .error e => .error (.invalidUrl e.message)
  | .ok url =>
    if url.scheme == "http" || url.scheme == "https" then
      .ok ⟨⟨url, start, settings⟩, false, .idle, ByteArray.empty, 0⟩
    else .error (.invalidUrl s!"unsupported scheme: {url.scheme}")

/-- Whether the request has been made, or never will be. -/
def isOpened (c : Connection) : Bool := c.state != .idle

def isClosed (c : Connection) : Bool := c.state == .closed

/-- Makes every later wait fail. -/
def cancel (c : Connection) : Connection := { c with cancelled := true }

def close (c : Connection) : Connection :=
  { c with cancelled := true, state := .closed, pending := ByteArray.empty }

/-- A fault as a failure of the connection. -/
def failureOf (c : Connection) : Fault → Failure
  | .timedOut => .requestTimeout (clampWord c.request.settings.timeout.millis)
  | .broken detail => .network detail

/-- Why the connection cannot make its request, if it cannot. -/
def hindrance? (c : Connection) : Option Failure :=
  if !Request.isValue c.request.settings.userAgent then some (.configuration "user agent")
  else if c.cancelled then some .cancelled
  else if !c.request.isSendable then some (.network "header")
  else none

/-- The body that an origin sent, or the failure that its answer amounts to. -/
def bodyOf (c : Connection) (outcome : Except Fault Response) : Except Failure Response :=
  match outcome with
  | .error fault => .error (c.failureOf fault)
  | .ok response =>
    if response.status = partialContent then .ok response else .error (.unexpectedStatus response.status)

/-- Hands out at most `n` of the bytes that came in. -/
def handOut (c : Connection) (delay n : Nat) : Reply Connection :=
  let n := min n c.pending.size
  ⟨delay, .ok (c.pending.extract 0 n), { c with pending := c.pending.extract n c.pending.size }⟩

/-- Waits for the next bytes of a body and hands out at most `n` of them. -/
def await (c : Connection) (response : Response) (delay n : Nat) : Reply Connection :=
  if c.cancelled then ⟨delay, .error .cancelled, { c with state := .streaming response }⟩
  else go c response response.body delay
where
  /-- Passes over pieces without bytes. -/
  go (c : Connection) (response : Response) : List Piece → Nat → Reply Connection
    | [], delay =>
      match response.broken with
      | none => ⟨delay + response.endDelay, .ok ByteArray.empty, { c with state := .finished }⟩
      | some fault => ⟨delay + response.endDelay, .error (c.failureOf fault), { c with state := .failed }⟩
    | piece :: body, delay =>
      if piece.bytes.size = 0 then go c response body (delay + piece.delay)
      else
        handOut { c with pending := piece.bytes, state := .streaming { response with body } } (delay + piece.delay) n

/-- The connection with its request made. -/
def begun (c : Connection) : Connection := { c with requests := c.requests + 1 }

/-- Takes the answer to the request and hands out at most `n` bytes of its body. -/
def receive (c : Connection) (sent : Sent) (n : Nat) : Reply Connection :=
  match c.bodyOf sent.outcome with
  | .error failure => ⟨sent.delay, .error failure, { c with state := .failed }⟩
  | .ok response => c.await response sent.delay n

/-- Asks for at most `n` bytes. -/
def read (network : Network) (c : Connection) (n : Nat) : Reply Connection :=
  if c.isClosed then ⟨0, .error .closed, c⟩
  else if n = 0 then ⟨0, .ok ByteArray.empty, c⟩
  else if 0 < c.pending.size then c.handOut 0 n
  else match c.state with
    | .idle =>
      match c.hindrance? with
      | some failure => ⟨0, .error failure, { c with state := .failed }⟩
      | none => c.begun.receive (network.send c.request) n
    | .streaming response => c.await response 0 n
    | .finished => ⟨0, .ok ByteArray.empty, c⟩
    | .failed => ⟨0, .error (.network "range request failed"), c⟩
    | .closed => ⟨0, .error .closed, c⟩

theorem size_handOut {c : Connection} {delay n : Nat} {b : ByteArray} (h : (c.handOut delay n).answer = .ok b) :
    b.size ≤ n := by
  obtain rfl := Except.ok.inj h
  rw [ByteArray.size_extract]
  omega

theorem size_await {c : Connection} {response : Response} {delay n : Nat} {b : ByteArray}
    (h : (c.await response delay n).answer = .ok b) : b.size ≤ n := by
  unfold await at h
  split at h
  · simp at h
  · generalize response.body = body at h
    induction body generalizing delay with
    | nil =>
      rw [await.go] at h
      split at h
      · obtain rfl := Except.ok.inj h
        simp
      · simp at h
    | cons piece body ih =>
      rw [await.go] at h
      split at h
      · exact ih h
      · exact size_handOut h

theorem size_receive {c : Connection} {sent : Sent} {n : Nat} {b : ByteArray}
    (h : (c.receive sent n).answer = .ok b) : b.size ≤ n := by
  unfold receive at h
  split at h
  · simp at h
  · exact size_await h

theorem size_read {network : Network} {c : Connection} {n : Nat} {b : ByteArray}
    (h : (c.read network n).answer = .ok b) : b.size ≤ n := by
  unfold read at h
  split at h
  · simp at h
  · split at h
    · obtain rfl := Except.ok.inj h
      simp
    · split at h
      · exact size_handOut h
      · split at h
        · split at h
          · simp at h
          · exact size_receive h
        · exact size_await h
        · obtain rfl := Except.ok.inj h
          simp
        · simp at h
        · simp at h

/-- The origin that connections reach. -/
def origin (network : Network) (settings : ConnectionSettings) : Origin Connection where
  connect url _ start := fresh url start settings
  read c n := c.read network n
  read_le := size_read

end Connection
end ReadAhead
