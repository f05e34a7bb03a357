import ReadAhead.Pool
import ReadAhead.Session
import ReadAhead.Settings
import ReadAhead.Source.Connection
import ReadAhead.Text.Quoted

/-! How rings, pools, settings, feeds, streams and connections describe themselves in diagnostics: as
    records that name every part. -/

namespace ReadAhead

/-! ### Rings and pools -/

def Cursor.describe (c : Cursor) : String :=
  Text.record "Cursor" [("page", toString c.page), ("offset", toString c.offset)]

def Ring.describe (r : Ring) : String :=
  Text.record "RingBuffer" [
    ("capacity", toString r.capacity),
    ("read", r.read.describe),
    ("write", r.write.describe),
    ("len", toString r.len),
    ("base", toString r.base),
    ("end", Text.optional (r.stop.map toString)),
    ("closed", toString r.isClosed)]

def Buffer.describe (b : Buffer) : String := Text.record "PooledBuffer" [("len", toString b.len)]

/-- The counters of a pool. -/
def Pool.describeStats (p : Pool) : String :=
  Text.record "PoolStats" [
    ("allocated", toString p.allocated),
    ("reused", toString p.reused),
    ("idle", toString p.idle.length)]

def Pool.describe (p : Pool) : String :=
  Text.record "BufferPool" [
    ("buffer_len", toString p.len),
    ("max_idle", toString p.maxIdle),
    ("stats", p.describeStats)]

/-! ### Settings -/

def Tier.describe (t : Tier) : String :=
  Text.record "BufferTier" [("capacity", toString t.capacity), ("preload_margin", toString t.margin)]

def TierRule.describe (r : TierRule) : String :=
  Text.record "TierRule" [("max_file_size", toString r.maxFileSize), ("capacity", toString r.capacity)]

def TierPolicy.describe (p : TierPolicy) : String :=
  Text.record "BufferSizePolicy" [
    ("tiers", Text.listed (p.rules.map TierRule.describe)),
    ("fallback_capacity", toString p.fallbackCapacity),
    ("margin_divisor", toString p.marginDivisor),
    ("max_preload_margin", toString p.maxMargin)]

/-- A header as a pair of quoted texts. -/
def describeHeader (header : String × String) : String :=
  "(" ++ Text.quoted header.1 ++ ", " ++ Text.quoted header.2 ++ ")"

def ConnectionSettings.describe (c : ConnectionSettings) : String :=
  Text.record "ConnectionConfig" [
    ("timeout", c.timeout.text),
    ("connect_timeout", c.connectTimeout.text),
    ("user_agent", Text.quoted c.userAgent),
    ("headers", Text.listed (c.headers.map describeHeader))]

def StreamSettings.describe (s : StreamSettings) : String :=
  Text.record "StreamConfig" [
    ("read_timeout", s.readTimeout.text),
    ("max_read_timeout", s.maxReadTimeout.text),
    ("scratch_size", toString s.scratchSize),
    ("policy", s.policy.describe),
    ("connection", s.connection.describe)]

def CatalogSettings.describe (c : CatalogSettings) : String :=
  Text.record "FactoryConfig" [("url_ttl", c.urlLifetime.text), ("stream", c.stream.describe)]

/-! ### Feeds, streams and connections -/

def Feed.describe {σ : Type} (f : Feed σ) : String :=
  Text.record "Transfer" [
    ("start", toString f.start),
    ("bytes_copied", toString f.copied),
    ("finished", toString f.isStopped)]

def Session.describe {σ : Type} (s : Session σ) : String :=
  Text.record "Stream" [
    ("id", "NodeId(" ++ toString s.stream.node ++ ")"),
    ("url", Text.quoted s.stream.url),
    ("size", toString s.stream.size),
    ("tier", s.stream.tier.describe),
    ("state", s.lifecycle.name),
    ("buffered", toString s.ring.start ++ ".." ++ toString s.ring.writePosition)]

def Connection.describe (c : Connection) : String :=
  Text.record "Connection" [
    ("url", Text.quoted c.request.url.text),
    ("start", toString c.request.start),
    ("opened", toString c.isOpened),
    ("closed", toString c.isClosed)]

end ReadAhead
