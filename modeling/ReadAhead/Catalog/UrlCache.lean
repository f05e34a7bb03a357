/-! Resolved URLs, kept for a while. Each node has at most one entry, and an entry that has expired counts
    as missing. -/

namespace ReadAhead

/-- A URL, and the time from which on it is no longer good. -/
structure CachedUrl where
  url : String
  expires : Nat
  deriving DecidableEq, Repr

/-- The URLs of nodes. -/
structure UrlCache where
  entries : List (Nat × CachedUrl)
  nodup : (entries.map Prod.fst).Nodup

namespace UrlCache

def empty : UrlCache := ⟨[], .nil⟩

/-- The entry of a node. -/
def get? (c : UrlCache) (node : Nat) : Option CachedUrl := c.entries.lookup node

def size (c : UrlCache) : Nat := c.entries.length

def erase (c : UrlCache) (node : Nat) : UrlCache where
  entries := c.entries.filter fun e => e.1 != node
  nodup := c.nodup.sublist (List.filter_sublist.map Prod.fst)

def insert (c : UrlCache) (node : Nat) (entry : CachedUrl) : UrlCache where
  entries := (node, entry) :: (c.erase node).entries
  nodup := by
    refine List.nodup_cons.mpr ⟨?_, (c.erase node).nodup⟩
    simp [erase]

/-- The URL of a node that is still good at `now`. An entry that has expired is dropped. -/
def lookup (c : UrlCache) (now node : Nat) : Option String × UrlCache :=
  match c.get? node with
  | some entry => if now < entry.expires then (some entry.url, c) else (none, c.erase node)
  | none => (none, c)

end UrlCache
end ReadAhead
