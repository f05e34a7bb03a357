import ReadAhead.Catalog.UrlCache
import ReadAhead.Failure
import ReadAhead.Settings
import ReadAhead.Stream

/-! A catalog makes streams of nodes. It asks a resolver where the bytes of a node are and keeps the answer
    for a while. A resolution has two halves, for others may work on the catalog while the resolver is
    asked: `consult` looks for a URL at hand, and `conclude` takes the answer. A call breaks off if no clock
    can tell when the URL expires that was found for it: it is given nothing then, not even a failure. -/

namespace ReadAhead

structure Catalog where
  settings : CatalogSettings
  urls : UrlCache
  closed : Bool

/-- What others may do to a catalog while a resolver is asked. -/
inductive Catalog.Interruption
  | invalidate (node : Nat)
  | close
  deriving DecidableEq, Repr

/-- The answer of a resolver with states of type `ρ`. -/
structure Resolution (ρ : Type) where
  url : Except Failure String
  /-- How long the answer takes. -/
  delay : Nat
  /-- What is done to the catalog before the answer is there. -/
  meanwhile : List Catalog.Interruption
  next : ρ

namespace Catalog

/-- A catalog that knows no URL. -/
def fresh (settings : CatalogSettings) : Catalog := ⟨settings, .empty, false⟩

/-- How many URLs are kept, those that have expired included. -/
def cachedUrls (c : Catalog) : Nat := c.urls.size

/-- Forgets the URL of a node, and says whether there was one. -/
def invalidate (node : Nat) (c : Catalog) : Bool × Catalog :=
  ((c.urls.get? node).isSome, { c with urls := c.urls.erase node })

/-- Closes the catalog and forgets every URL. -/
def close (c : Catalog) : Catalog := if c.closed then c else { c with closed := true, urls := .empty }

/-- Does what an interruption does. -/
def interrupt (c : Catalog) : Interruption → Catalog
  | .invalidate node => (c.invalidate node).2
  | .close => c.close

/-! ### Resolving -/

/-- Looks for a URL of `node` that is at hand at `now`. -/
def consult (now node : Nat) (c : Catalog) : Except Failure (Option String) × Catalog :=
  if c.closed then (.error .closed, c)
  else
    let (found, urls) := c.urls.lookup now node
    (.ok found, { c with urls })

/-- Takes what a resolver answered for `node` at `now`. A failure is not kept, and a catalog closed
    meanwhile hands nothing out. A call that breaks off keeps nothing. -/
def conclude (now node : Nat) (answer : Except Failure String) (c : Catalog) :
    Option (Except Failure String) × Catalog :=
  match answer with
  | .error failure => (some (.error failure), c)
  | .ok url =>
    if c.closed then (some (.error .closed), c)
    else
      match c.settings.urlLifetime.endFrom? now with
      | some expires => (some (.ok url), { c with urls := c.urls.insert node ⟨url, expires⟩ })
      | none => (none, c)

/-- The URL of `node`, wanted at `now`. The resolver is asked if none is at hand, and what it answers is good for a
    time that begins with the answer. -/
def resolve {ρ : Type} (ask : ρ → Nat → Resolution ρ) (now node : Nat) (c : Catalog) (resolver : ρ) :
    Option (Except Failure String) × Catalog × ρ :=
  match c.consult now node with
  | (.error failure, c) => (some (.error failure), c, resolver)
  | (.ok (some url), c) => (some (.ok url), c, resolver)
  | (.ok none, c) =>
    let answer := ask resolver node
    let (url, c) := (answer.meanwhile.foldl interrupt c).conclude (now + answer.delay) node answer.url
    (url, c, answer.next)

/-! ### Making streams -/

/-- The stream of a node of `size` bytes that are at `url`. -/
def streamOf (node size : Nat) (url : String) (c : Catalog) : Stream :=
  Stream.of node url size (c.settings.stream.policy.tierFor size) c.settings.stream.readTimeout
    c.settings.stream.maxReadTimeout c.settings.stream.scratchSize

/-- A new stream of a node of `size` bytes. -/
def openStream {ρ : Type} (ask : ρ → Nat → Resolution ρ) (now node size : Nat) (c : Catalog) (resolver : ρ) :
    Option (Except Failure Stream) × Catalog × ρ :=
  let (url, c, resolver) := c.resolve ask now node resolver
  (url.map (Except.map (c.streamOf node size)), c, resolver)

end Catalog
end ReadAhead
