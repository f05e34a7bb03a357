import Mathlib.Data.List.DropRight
import ReadAhead.Catalog

/-! A catalog at the hands of one owner, who does one thing after the other. A journal is kept of each answer of
    the resolver and of what was forgotten, and it tells which URL of a node is known. -/

namespace ReadAhead
namespace Catalog

/-- What the owner of a catalog does. -/
inductive Call
  | resolve (node : Nat)
  | openStream (node size : Nat)
  | invalidate (node : Nat)
  | close
  | wait (nanos : Nat)
  deriving DecidableEq, Repr

/-- Whether it is about other nodes only. -/
def Call.spares (node : Nat) : Call → Bool
  | resolve n => n != node
  | openStream n _ => n != node
  | invalidate n => n != node
  | close => false
  | wait _ => true

/-! ### The journal -/

/-- What can change the URL that is known of a node. -/
inductive Event
  | answered (node : Nat) (answer : Except Failure String)
  | invalidated (node : Nat)
  | closed
  deriving DecidableEq

namespace Event

/-- Whether it says anything of a node. -/
def regards (node : Nat) : Event → Bool
  | answered n _ => n == node
  | invalidated n => n == node
  | closed => true

/-- Whether the URL of a node is to be forgotten. -/
def forgets (node : Nat) : Event → Bool
  | answered _ _ => false
  | invalidated n => n == node
  | closed => true

/-- The URL that was found for a node. -/
def url? (node : Nat) : Event → Option String
  | answered n (.ok url) => if n = node then some url else none
  | _ => none

end Event

/-- The first URL that was found for a node since it was last forgotten. -/
def firstUrl (node : Nat) (journal : List Event) : Option String :=
  (journal.rtakeWhile fun e => !e.forgets node).findSome? (Event.url? node)

/-- The URL that was found for a node when it was last looked for, unless it was forgotten since. -/
def lastUrl (node : Nat) (journal : List Event) : Option String :=
  (journal.reverse.find? (Event.regards node)).bind (Event.url? node)

/-- A resolver of states of type `ρ`, the time, and what has happened so far. -/
structure Record (ρ : Type) where
  resolver : ρ
  now : Nat
  journal : List Event

namespace Record
variable {ρ : Type}

def note (event : Event) (r : Record ρ) : Record ρ := { r with journal := r.journal ++ [event] }

/-- Asks the resolver for the URL of a node. -/
def ask (asks : ρ → Nat → Resolution ρ) (r : Record ρ) (node : Nat) : Resolution (Record ρ) :=
  let answer := asks r.resolver node
  { url := answer.url
    delay := answer.delay
    meanwhile := answer.meanwhile
    next := { r with resolver := answer.next, now := r.now + answer.delay }.note (.answered node answer.url) }

end Record

/-! ### The owner -/

/-- A catalog and the record of its use. -/
structure Desk (ρ : Type) where
  catalog : Catalog
  record : Record ρ

namespace Desk
variable {ρ : Type}

/-- A desk at time `now`, with a catalog that knows no URL. -/
def fresh (settings : CatalogSettings) (now : Nat) (resolver : ρ) : Desk ρ := ⟨.fresh settings, resolver, now, []⟩

variable (asks : ρ → Nat → Resolution ρ)

def resolve (node : Nat) (d : Desk ρ) : Option (Except Failure String) × Desk ρ :=
  let (url, catalog, record) := d.catalog.resolve (Record.ask asks) d.record.now node d.record
  (url, ⟨catalog, record⟩)

def openStream (node size : Nat) (d : Desk ρ) : Option (Except Failure Stream) × Desk ρ :=
  let (stream, catalog, record) := d.catalog.openStream (Record.ask asks) d.record.now node size d.record
  (stream, ⟨catalog, record⟩)

def invalidate (node : Nat) (d : Desk ρ) : Bool × Desk ρ :=
  let (found, catalog) := d.catalog.invalidate node
  (found, ⟨catalog, d.record.note (.invalidated node)⟩)

def close (d : Desk ρ) : Desk ρ := ⟨d.catalog.close, d.record.note .closed⟩

def wait (nanos : Nat) (d : Desk ρ) : Desk ρ := { d with record := { d.record with now := d.record.now + nanos } }

/-- The desk after one call. -/
def step (d : Desk ρ) : Call → Desk ρ
  | .resolve node => (d.resolve asks node).2
  | .openStream node size => (d.openStream asks node size).2
  | .invalidate node => (d.invalidate node).2
  | .close => d.close
  | .wait nanos => d.wait nanos

/-- The desk after call upon call. -/
def after (calls : List Call) (d : Desk ρ) : Desk ρ := calls.foldl (step asks) d

end Desk

/-! ### What the journal says -/

variable {node : Nat} {journal : List Event} {event : Event}

@[simp] theorem firstUrl_nil : firstUrl node [] = none := rfl

@[simp] theorem lastUrl_nil : lastUrl node [] = none := rfl

theorem firstUrl_concat (node : Nat) (journal : List Event) (event : Event) :
    firstUrl node (journal ++ [event]) =
      if event.forgets node then none else (firstUrl node journal).or (event.url? node) := by
  unfold firstUrl
  split
  · next hforgets => rw [List.rtakeWhile_concat_neg _ _ _ (by simp [hforgets])]; rfl
  · next hforgets =>
    rw [List.rtakeWhile_concat_pos _ _ _ (by simp [hforgets]), List.findSome?_append, List.findSome?_singleton]

theorem lastUrl_concat (node : Nat) (journal : List Event) (event : Event) :
    lastUrl node (journal ++ [event]) = if event.regards node then event.url? node else lastUrl node journal := by
  unfold lastUrl
  rw [List.reverse_append, List.reverse_singleton, List.singleton_append, List.find?_cons]
  split <;> simp_all

end Catalog
end ReadAhead
