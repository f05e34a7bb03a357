import ReadAhead.Duration
import ReadAhead.Tier

/-! What a stream is before anyone reads it: the file it reads, the ring it gets, and how long its reads
    wait. -/

namespace ReadAhead

/-- A file to be read through one ring. -/
structure Stream where
  node : Nat
  url : String
  size : Nat
  tier : Tier
  /-- How long a read waits that names no time of its own. -/
  readTimeout : Duration
  /-- The longest that any read waits. -/
  maxReadTimeout : Duration
  /-- Bytes that a feed asks for at once. -/
  scratch : Nat
  deriving DecidableEq

namespace Stream

/-- A stream whose ring has room for at least one byte. -/
def of (node : Nat) (url : String) (size : Nat) (tier : Tier) (readTimeout maxReadTimeout : Duration)
    (scratch : Nat) : Stream :=
  { node, url, size, tier := Tier.of (max tier.capacity 1) tier.margin, readTimeout, maxReadTimeout, scratch }

/-- How long a read waits that asks for `timeout`. -/
def waitFor (s : Stream) (timeout : Option Duration) : Duration :=
  (timeout.getD s.readTimeout).atMost s.maxReadTimeout

end Stream
end ReadAhead
