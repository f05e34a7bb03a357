import Mathlib.Data.Set.Card
import ReadAhead.Catalog

/-! The kept URLs as a map from nodes to entries, and what a catalog does with them. -/

namespace ReadAhead
namespace UrlCache
variable {c : UrlCache} {node other now : Nat} {entry : CachedUrl}

/-! ### The map -/

@[simp] theorem get?_empty : empty.get? node = none := rfl

theorem get?_erase (c : UrlCache) (node other : Nat) :
    (c.erase node).get? other = if other = node then none else c.get? other := by
  have hfilter : ∀ entries : List (Nat × CachedUrl),
      (entries.filter fun e => e.1 != node).lookup other = if other = node then none else entries.lookup other := by
    intro entries
    induction entries with
    | nil => simp
    | cons e entries ih =>
      obtain ⟨n, entry⟩ := e
      by_cases hn : n = node
      · rw [List.filter_cons_of_neg (by simpa using hn), ih]
        split
        · rfl
        · next hother => rw [List.lookup_cons, beq_false_of_ne (hn ▸ hother)]
      · rw [List.filter_cons_of_pos (by simpa using hn), List.lookup_cons, List.lookup_cons, ih]
        by_cases hother : other = node
        · rw [beq_false_of_ne (hother ▸ Ne.symm hn)]
        · simp only [if_neg hother]
  exact hfilter c.entries

theorem get?_of_erase (h : (c.erase node).get? other = some entry) : c.get? other = some entry := by
  rw [get?_erase] at h
  split at h
  · cases h
  · exact h

theorem get?_insert (c : UrlCache) (node other : Nat) (entry : CachedUrl) :
    (c.insert node entry).get? other = if other = node then some entry else c.get? other := by
  show ((node, entry) :: (c.erase node).entries).lookup other = _
  by_cases hother : other = node
  · simp [hother]
  · rw [if_neg hother, List.lookup_cons, beq_false_of_ne hother]
    exact (get?_erase c node other).trans (if_neg hother)

theorem get?_eq_none : c.get? node = none ↔ node ∉ c.entries.map Prod.fst := by
  simp only [get?, List.lookup_eq_none_iff, List.mem_map, not_exists, not_and]
  constructor
  · intro h e he hnode
    exact (beq_eq_false_iff_ne.mp (by simpa using h e he)) hnode.symm
  · intro h e he
    simpa using fun hnode => h e he hnode.symm

/-- A node without an entry has none to lose. -/
theorem erase_of_get?_eq_none (h : c.get? node = none) : c.erase node = c := by
  have hsame : (c.entries.filter fun e => e.1 != node) = c.entries := by
    rw [List.filter_eq_self]
    intro e he
    have hnode := get?_eq_none.mp h
    simp only [bne_iff_ne]
    rintro rfl
    exact hnode (List.mem_map_of_mem he)
  cases c
  simp only [erase, mk.injEq]
  exact hsame

/-- As many entries are kept as there are nodes that have one. -/
theorem size_eq_ncard (c : UrlCache) : c.size = {node | c.get? node ≠ none}.ncard := by
  have hnodes : {node | c.get? node ≠ none} = ((c.entries.map Prod.fst).toFinset : Set Nat) := by
    ext node
    rw [Set.mem_ofPred_eq, ne_eq, get?_eq_none, not_not, Finset.mem_coe, List.mem_toFinset]
  rw [hnodes, Set.ncard_coe_finset, List.toFinset_card_of_nodup c.nodup, List.length_map]
  rfl

/-! ### Looking for a URL -/

/-- No URL of the node is good at `now`. -/
def Lacks (c : UrlCache) (now node : Nat) : Prop := ∀ entry, c.get? node = some entry → entry.expires ≤ now

theorem lookup_of_good (h : c.get? node = some entry) (hgood : now < entry.expires) :
    c.lookup now node = (some entry.url, c) := by
  simp only [lookup, h, if_pos hgood]

/-- What has expired is dropped. -/
theorem lookup_of_lacks (h : c.Lacks now node) : c.lookup now node = (none, c.erase node) := by
  cases hget : c.get? node with
  | none => simp only [lookup, hget, erase_of_get?_eq_none hget]
  | some entry => simp only [lookup, hget, if_neg (Nat.not_lt.mpr (h entry hget))]

theorem good_or_lacks (c : UrlCache) (now node : Nat) :
    (∃ entry, c.get? node = some entry ∧ now < entry.expires) ∨ c.Lacks now node := by
  cases hget : c.get? node with
  | none => exact Or.inr fun entry hentry => nomatch hget.symm.trans hentry
  | some entry =>
    rcases Nat.lt_or_ge now entry.expires with hgood | hover
    · exact Or.inl ⟨entry, rfl, hgood⟩
    · refine Or.inr fun other hother => ?_
      obtain rfl := Option.some.inj (hget.symm.trans hother)
      exact hover

end UrlCache

namespace Catalog
variable {c d : Catalog} {now node : Nat} {url : String}

/-- Keeps a URL for a node. -/
def keep (node : Nat) (entry : CachedUrl) (c : Catalog) : Catalog := { c with urls := c.urls.insert node entry }

/-- What looking for the URL of a node comes to. -/
inductive Consults (now node : Nat) (c : Catalog) : Except Failure (Option String) → Catalog → Prop
  | closed (hc : c.closed = true) : Consults now node c (.error .closed) c
  | found {entry : CachedUrl} (hc : c.closed = false) (hentry : c.urls.get? node = some entry)
    (hgood : now < entry.expires) : Consults now node c (.ok (some entry.url)) c
  | missed (hc : c.closed = false) (hlacks : c.urls.Lacks now node) :
    Consults now node c (.ok none) (c.invalidate node).2

theorem consults (now node : Nat) (c : Catalog) : Consults now node c (c.consult now node).1 (c.consult now node).2 := by
  cases hc : c.closed with
  | true =>
    rw [show c.consult now node = (.error .closed, c) from if_pos hc]
    exact .closed hc
  | false =>
    have hopen : c.consult now node = (.ok (c.urls.lookup now node).1, { c with urls := (c.urls.lookup now node).2 }) :=
      if_neg (Bool.eq_false_iff.mp hc)
    rcases c.urls.good_or_lacks now node with ⟨entry, hentry, hgood⟩ | hlacks
    · rw [hopen, UrlCache.lookup_of_good hentry hgood]
      exact .found hc hentry hgood
    · rw [hopen, UrlCache.lookup_of_lacks hlacks]
      exact .missed hc hlacks

/-- What an answer of the resolver comes to. -/
inductive Concludes (now node : Nat) (c : Catalog) :
    Except Failure String → Option (Except Failure String) → Catalog → Prop
  | failed (cause : Failure) : Concludes now node c (.error cause) (some (.error cause)) c
  | closed (hc : c.closed = true) (url : String) : Concludes now node c (.ok url) (some (.error .closed)) c
  | kept (hc : c.closed = false) (hclock : now + c.settings.urlLifetime.nanos < Duration.clockEnd) (url : String) :
    Concludes now node c (.ok url) (some (.ok url)) (c.keep node ⟨url, now + c.settings.urlLifetime.nanos⟩)
  | brokeOff (hc : c.closed = false) (hclock : Duration.clockEnd ≤ now + c.settings.urlLifetime.nanos)
    (url : String) : Concludes now node c (.ok url) none c

theorem concludes (now node : Nat) (c : Catalog) (answer : Except Failure String) :
    Concludes now node c answer (c.conclude now node answer).1 (c.conclude now node answer).2 := by
  cases answer with
  | error cause => exact .failed cause
  | ok url =>
    cases hc : c.closed with
    | true =>
      rw [show c.conclude now node (.ok url) = (some (.error .closed), c) from if_pos hc]
      exact .closed hc url
    | false =>
      rcases Nat.lt_or_ge (now + c.settings.urlLifetime.nanos) Duration.clockEnd with hclock | hclock
      · have hkept : c.conclude now node (.ok url) =
            (some (.ok url), c.keep node ⟨url, now + c.settings.urlLifetime.nanos⟩) := by
          simp only [conclude, keep, hc, Bool.false_eq_true, if_false, Duration.endFrom?_of_lt hclock]
        rw [hkept]
        exact .kept hc hclock url
      · have hlost : c.conclude now node (.ok url) = (none, c) := by
          simp only [conclude, hc, Bool.false_eq_true, if_false, Duration.endFrom?_of_le hclock]
        rw [hlost]
        exact .brokeOff hc hclock url

@[simp] theorem closed_close (c : Catalog) : c.close.closed = true := by
  unfold close
  split
  · next hc => exact hc
  · rfl

@[simp] theorem settings_close (c : Catalog) : c.close.settings = c.settings := by
  unfold close
  split <;> rfl

/-- A closed catalog knows no URL. -/
def Sealed (c : Catalog) : Prop := c.closed = true → c.urls = .empty

theorem Sealed.urls_close (h : c.Sealed) : c.close.urls = .empty := by
  unfold close
  split
  · next hc => exact h hc
  · rfl

/-- What can happen to a catalog. -/
inductive Changes (c : Catalog) : Catalog → Prop
  | same : Changes c c
  | forgotten (node : Nat) : Changes c (c.invalidate node).2
  | kept (hc : c.closed = false) (node : Nat) (entry : CachedUrl) : Changes c (c.keep node entry)
  | closed : Changes c c.close

theorem Changes.sealed (h : Changes c d) (hc : c.Sealed) : d.Sealed := by
  intro hclosed
  cases h with
  | same => exact hc hclosed
  | forgotten node => exact (congrArg (fun u => u.erase node) (hc hclosed)).trans (UrlCache.erase_of_get?_eq_none rfl)
  | kept hopen => exact nomatch hopen.symm.trans hclosed
  | closed => exact hc.urls_close

theorem Changes.closed_of_closed (h : Changes c d) (hc : c.closed = true) : d.closed = true := by
  cases h with
  | same => exact hc
  | forgotten => exact hc
  | kept => exact hc
  | closed => exact closed_close c

end Catalog
end ReadAhead
