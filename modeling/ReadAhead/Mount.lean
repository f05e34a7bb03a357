import ReadAhead.Catalog.Directory
import ReadAhead.Description
import ReadAhead.Session.Run

/-! A mount: a catalog, the directory that it asks, and the streams that were made so far, each under a
    label. The streams share one clock and one count of connections, so while one is read the others go
    on with what they can do. -/

namespace ReadAhead

/-- A catalog at work with its streams. -/
structure Mount (σ : Type) where
  catalog : Catalog
  directory : Directory
  /-- The streams by their labels. -/
  streams : List (Nat × Session σ)
  now : Nat
  /-- The time that URLs expire by, which has a clock of its own. -/
  wall : Nat
  /-- How many times a connection has been attempted. -/
  attempts : Nat
  /-- The offsets of the connections made so far, in their order. -/
  connections : List Nat

namespace Mount
variable {σ : Type}

/-- A mount that has made no stream. -/
def fresh (settings : CatalogSettings) : Mount σ := ⟨.fresh settings, .empty, [], 0, 0, 0, []⟩

/-- Works on the directory. -/
def onDirectory (f : Directory → Directory) (m : Mount σ) : Mount σ := { m with directory := f m.directory }

/-- The URL of a node. There is none, and no failure either, if the call breaks off. -/
def resolve (node : Nat) (m : Mount σ) : Option (Except Failure String) × Mount σ :=
  let (url, catalog, directory) := m.catalog.resolve Directory.ask m.wall node m.directory
  (url, { m with catalog, directory })

/-- Makes a stream of a node of `size` bytes and keeps it under `label`. -/
def openStream (node size label : Nat) (m : Mount σ) : Option (Except Failure (Session σ)) × Mount σ :=
  let (stream, catalog, directory) := m.catalog.openStream Directory.ask m.wall node size m.directory
  let m := { m with catalog, directory }
  match stream with
  | none => (none, m)
  | some (.error failure) => (some (.error failure), m)
  | some (.ok stream) =>
    let session := Session.fresh stream m.now
    (some (.ok session), { m with streams := (label, session) :: m.streams.filter fun s => s.1 != label })

/-- Forgets the URL of a node, and says whether there was one. -/
def invalidate (node : Nat) (m : Mount σ) : Bool × Mount σ :=
  let (found, catalog) := m.catalog.invalidate node
  (found, { m with catalog })

/-- Closes the catalog. Streams made before go on. -/
def close (m : Mount σ) : Mount σ := { m with catalog := m.catalog.close }

/-! ### Work on one stream -/

def stream? (m : Mount σ) (label : Nat) : Option (Session σ) := m.streams.lookup label

/-- Works on the stream under `label`, if there is one; then the other streams catch up with the time. -/
def onStream {α : Type} (origin : Origin σ) (label : Nat) (work : Session σ → α × Session σ) (m : Mount σ) :
    Option α × Mount σ :=
  match m.stream? label with
  | none => (none, m)
  | some session =>
    let before := session.feeds.length
    let others := m.streams.filter fun s => s.1 != label
    let (answer, session) := work { session with now := m.now, attempts := m.attempts }
    let others := others.map fun (l, s) => (l, s.passUntil origin session.now)
    (some answer,
      { m with
        streams := (label, session) :: others
        now := session.now
        attempts := session.attempts
        connections := m.connections ++ (session.feeds.drop before).map Feed.start })

/-- Reads `len` bytes at `position` from the stream under `label`. -/
def read (origin : Origin σ) (label len position : Nat) (m : Mount σ) :
    Option (Option (Except Failure Delivery)) × Mount σ :=
  m.onStream origin label fun s => s.read origin len position none

/-- Closes the stream under `label`, and shows the state it is in then. -/
def closeStream (origin : Origin σ) (label : Nat) (m : Mount σ) : Option Lifecycle × Mount σ :=
  m.onStream origin label fun s =>
    let s := s.close origin
    (s.lifecycle, s)

/-- How a mount describes itself in diagnostics. -/
def describe (m : Mount σ) : String :=
  Text.record "StreamFactory" [
    ("config", m.catalog.settings.describe),
    ("cached_urls", toString m.catalog.cachedUrls),
    ("closed", toString m.catalog.closed)]

end Mount
end ReadAhead
