import ReadAhead.Duration
import ReadAhead.Tier

/-! Settings of connections, of streams and of the catalog that makes streams. -/

namespace ReadAhead

/-- How one range request is made. -/
structure ConnectionSettings where
  /-- How long the whole request may take. -/
  timeout : Duration
  connectTimeout : Duration
  userAgent : String
  /-- Headers sent beside the range. -/
  headers : List (String × String)
  deriving DecidableEq, Repr

namespace ConnectionSettings

/-- Six hours for a request, ten seconds to connect, and no headers. -/
def standard : ConnectionSettings where
  timeout := .ofSeconds 21600
  connectTimeout := .ofSeconds 10
  userAgent := "ringfetch/0.1.0"
  headers := []

def withHeader (c : ConnectionSettings) (name value : String) : ConnectionSettings :=
  { c with headers := c.headers ++ [(name, value)] }

/-- Adds the header that shows a bearer token. -/
def withBearer (c : ConnectionSettings) (token : String) : ConnectionSettings :=
  c.withHeader "Authorization" ("Bearer " ++ token)

end ConnectionSettings

/-- How streams work. -/
structure StreamSettings where
  /-- How long a read waits that names no time of its own. -/
  readTimeout : Duration
  /-- The longest that any read waits. -/
  maxReadTimeout : Duration
  /-- Bytes that a feed asks for at once. -/
  scratchSize : Nat
  policy : TierPolicy
  connection : ConnectionSettings
  deriving DecidableEq, Repr

namespace StreamSettings

/-- Half a minute for a read, two minutes at most, and 32 KiB asked for at once. -/
def standard : StreamSettings where
  readTimeout := .ofSeconds 30
  maxReadTimeout := .ofSeconds 120
  scratchSize := 32 * 1024
  policy := .standard
  connection := .standard

/-- Sets the bytes asked for at once, kept between 4 KiB and 1 MiB. -/
def withScratchSize (s : StreamSettings) (n : Nat) : StreamSettings :=
  { s with scratchSize := max (4 * 1024) (min n (1024 * 1024)) }

/-- How long a read waits that asks for `requested`. -/
def effectiveTimeout (s : StreamSettings) (requested : Duration) : Duration := requested.atMost s.maxReadTimeout

end StreamSettings

/-- How a catalog makes streams. -/
structure CatalogSettings where
  /-- How long a resolved URL stays good. -/
  urlLifetime : Duration
  stream : StreamSettings
  deriving DecidableEq, Repr

namespace CatalogSettings

/-- A quarter of an hour for a URL. -/
def standard : CatalogSettings where
  urlLifetime := .ofSeconds 900
  stream := .standard

end CatalogSettings
end ReadAhead
