import ReadAhead.Json.Decode
import ReadAhead.Settings
import ReadAhead.Word

/-! Settings as JSON: how each kind of settings is written, and how it is read back. -/

namespace ReadAhead

/-! ### Spans of time -/

namespace Duration

/-- A span as its seconds and the nanoseconds beyond. -/
def toJson (d : Duration) : Json :=
  .object [(some "secs", .natural d.seconds), (some "nanos", .natural d.subsecond)]

/-- Reads a span. Nanoseconds beyond a second count on, as long as the seconds fit. -/
def ofJson? (j : Json) : Option Duration := do
  match ← j.fields? ["secs", "nanos"] true with
  | [secs, nanos] =>
    let secs ← secs.natural? wordBound
    let nanos ← nanos.natural? 0x100000000
    let d : Duration := ⟨secs * perSecond + nanos⟩
    if d.seconds < wordBound then some d else none
  | _ => none

end Duration

/-! ### Tables of tiers -/

namespace TierRule

def toJson (r : TierRule) : Json :=
  .object [(some "max_file_size", .natural r.maxFileSize), (some "capacity", .natural r.capacity)]

def ofJson? (j : Json) : Option TierRule := do
  match ← j.fields? ["max_file_size", "capacity"] false with
  | [size, capacity] => return ⟨← size.natural? wordBound, ← capacity.natural? wordBound⟩
  | _ => none

end TierRule

namespace TierPolicy

/-- A policy with its rules in the order they are stored in. -/
def toJson (p : TierPolicy) : Json :=
  .object [
    (some "tiers", .array (p.rules.map TierRule.toJson)),
    (some "fallback_capacity", .natural p.fallbackCapacity),
    (some "margin_divisor", .natural p.marginDivisor),
    (some "max_preload_margin", .natural p.maxMargin)]

/-- Reads a policy. The rules stay in the order they come in. -/
def ofJson? (j : Json) : Option TierPolicy := do
  match ← j.fields? ["tiers", "fallback_capacity", "margin_divisor", "max_preload_margin"] false with
  | [rules, fallback, divisor, margin] =>
    return {
      rules := ← (← rules.items?).mapM TierRule.ofJson?
      fallbackCapacity := ← fallback.natural? wordBound
      marginDivisor := ← divisor.natural? wordBound
      maxMargin := ← margin.natural? wordBound }
  | _ => none

end TierPolicy

/-! ### Settings -/

def headerToJson (header : String × String) : Json := .array [.text header.1, .text header.2]

def headerOfJson? (j : Json) : Option (String × String) := do
  let (name, value) ← j.two?
  return (← name.text?, ← value.text?)

namespace ConnectionSettings

def toJson (c : ConnectionSettings) : Json :=
  .object [
    (some "timeout", c.timeout.toJson),
    (some "connect_timeout", c.connectTimeout.toJson),
    (some "user_agent", .text c.userAgent),
    (some "headers", .array (c.headers.map headerToJson))]

def ofJson? (j : Json) : Option ConnectionSettings := do
  match ← j.fields? ["timeout", "connect_timeout", "user_agent", "headers"] false with
  | [timeout, connectTimeout, userAgent, headers] =>
    return {
      timeout := ← Duration.ofJson? timeout
      connectTimeout := ← Duration.ofJson? connectTimeout
      userAgent := ← userAgent.text?
      headers := ← (← headers.items?).mapM headerOfJson? }
  | _ => none

end ConnectionSettings

namespace StreamSettings

def toJson (s : StreamSettings) : Json :=
  .object [
    (some "read_timeout", s.readTimeout.toJson),
    (some "max_read_timeout", s.maxReadTimeout.toJson),
    (some "scratch_size", .natural s.scratchSize),
    (some "policy", s.policy.toJson),
    (some "connection", s.connection.toJson)]

def ofJson? (j : Json) : Option StreamSettings := do
  match ← j.fields? ["read_timeout", "max_read_timeout", "scratch_size", "policy", "connection"] false with
  | [readTimeout, maxReadTimeout, scratchSize, policy, connection] =>
    return {
      readTimeout := ← Duration.ofJson? readTimeout
      maxReadTimeout := ← Duration.ofJson? maxReadTimeout
      scratchSize := ← scratchSize.natural? wordBound
      policy := ← TierPolicy.ofJson? policy
      connection := ← ConnectionSettings.ofJson? connection }
  | _ => none

end StreamSettings

namespace CatalogSettings

def toJson (c : CatalogSettings) : Json :=
  .object [(some "url_ttl", c.urlLifetime.toJson), (some "stream", c.stream.toJson)]

def ofJson? (j : Json) : Option CatalogSettings := do
  match ← j.fields? ["url_ttl", "stream"] false with
  | [lifetime, stream] =>
    return { urlLifetime := ← Duration.ofJson? lifetime, stream := ← StreamSettings.ofJson? stream }
  | _ => none

end CatalogSettings
end ReadAhead
