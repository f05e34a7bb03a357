import ReadAhead.Ring.Error

/-! Why a read of a remote file fails. -/

namespace ReadAhead

/-- The causes for which a read, a connection or a resolution fails. -/
inductive Failure
  /-- The ring refused an operation. -/
  | ring (cause : RingError)
  /-- The origin answered with an HTTP error. -/
  | http (status : Nat) (detail : String)
  /-- The origin answered a range request with a status other than 206. -/
  | unexpectedStatus (status : Nat)
  /-- The network failed while connecting or while the body came in. -/
  | network (detail : String)
  /-- The transport gave up on the request. -/
  | requestTimeout (milliseconds : Nat)
  | invalidUrl (detail : String)
  /-- The transport could not be set up. -/
  | configuration (detail : String)
  /-- The bytes at a position did not come in time. -/
  | timeout (position milliseconds : Nat)
  /-- The feed stopped before it reached the position. -/
  | ended (position : Nat)
  | cancelled
  /-- The stream or the catalog is closed. -/
  | closed
  /-- No URL could be found for a node. -/
  | unresolved (node detail : String)
  deriving DecidableEq, Repr

namespace Failure

def message : Failure → String
  | ring cause => s!"Buffer error: {cause.message}"
  | http status detail => s!"HTTP error: {status} - {detail}"
  | unexpectedStatus status => s!"Unexpected status {status}: expected 206 Partial Content"
  | network detail => s!"Network error: {detail}"
  | requestTimeout milliseconds => s!"Request timeout after {milliseconds}ms"
  | invalidUrl detail => s!"Invalid URL: {detail}"
  | configuration detail => s!"Configuration error: {detail}"
  | timeout position milliseconds => s!"Timed out after {milliseconds}ms waiting for position {position}"
  | ended position => s!"Transfer ended at position {position}"
  | cancelled => "Operation cancelled"
  | closed => "Stream closed"
  | unresolved node detail => s!"Failed to resolve stream URL for node {node}: {detail}"

/-- Whether a later read may succeed without anyone stepping in. -/
def isTransient : Failure → Bool
  | network _ | requestTimeout _ | timeout _ _ | ended _ => true
  | http status _ => decide (500 ≤ status)
  | _ => false

/-- Whether the failure only says that someone stopped the work. -/
def isShutdown : Failure → Bool
  | cancelled | closed | ring .closed => true
  | _ => false

end Failure
end ReadAhead
