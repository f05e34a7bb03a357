import ReadAhead.Catalog.Journal
import ReadAhead.Proofs.Catalog.Entries

/-! A catalog that one owner uses answers as its journal says. `Agrees` ties the entries of the catalog to the last
    answers in the journal, and as long as no URL has expired the last answer for a node is also the first one since
    the node was last forgotten, for nobody asks again while an entry is good. That takes a clock which can tell when
    the URLs expire (`Timely`); where none ever can, no URL is handed out at all. -/

namespace ReadAhead
namespace Catalog

/-! ### What resolving comes to -/

section Resolves
variable {σ : Type}

/-- What resolving a node comes to if nobody else works on the catalog meanwhile. -/
inductive Resolves (asks : σ → Nat → Resolution σ) (now node : Nat) (c : Catalog) (resolver : σ) :
    Option (Except Failure String) → Catalog → σ → Prop
  | closed (hc : c.closed = true) : Resolves asks now node c resolver (some (.error .closed)) c resolver
  | found {entry : CachedUrl} (hc : c.closed = false) (hentry : c.urls.get? node = some entry)
    (hgood : now < entry.expires) : Resolves asks now node c resolver (some (.ok entry.url)) c resolver
  | failed {cause : Failure} (hc : c.closed = false) (hlacks : c.urls.Lacks now node)
    (hurl : (asks resolver node).url = .error cause) :
    Resolves asks now node c resolver (some (.error cause)) (c.invalidate node).2 (asks resolver node).next
  | renewed {url : String} (hc : c.closed = false) (hlacks : c.urls.Lacks now node)
    (hurl : (asks resolver node).url = .ok url)
    (hclock : now + (asks resolver node).delay + c.settings.urlLifetime.nanos < Duration.clockEnd) :
    Resolves asks now node c resolver (some (.ok url))
      ((c.invalidate node).2.keep node ⟨url, now + (asks resolver node).delay + c.settings.urlLifetime.nanos⟩)
      (asks resolver node).next
  | brokeOff {url : String} (hc : c.closed = false) (hlacks : c.urls.Lacks now node)
    (hurl : (asks resolver node).url = .ok url)
    (hclock : Duration.clockEnd ≤ now + (asks resolver node).delay + c.settings.urlLifetime.nanos) :
    Resolves asks now node c resolver none (c.invalidate node).2 (asks resolver node).next

theorem resolves (asks : σ → Nat → Resolution σ) {resolver : σ} {node : Nat}
    (halone : (asks resolver node).meanwhile = []) (now : Nat) (c : Catalog) :
    Resolves asks now node c resolver (c.resolve asks now node resolver).1 (c.resolve asks now node resolver).2.1
      (c.resolve asks now node resolver).2.2 := by
  have hconsults := consults now node c
  unfold resolve
  generalize c.consult now node = found at hconsults ⊢
  obtain ⟨found, d⟩ := found
  cases hconsults with
  | closed hc => exact .closed hc
  | found hc hentry hgood => exact .found hc hentry hgood
  | missed hc hlacks =>
    simp only [halone, List.foldl_nil]
    have hconcludes := concludes (now + (asks resolver node).delay) node { c with urls := c.urls.erase node }
      (asks resolver node).url
    generalize hurl : (asks resolver node).url = url at hconcludes ⊢
    generalize conclude _ node url { c with urls := c.urls.erase node } = concluded at hconcludes ⊢
    obtain ⟨answer, e⟩ := concluded
    cases hconcludes with
    | failed => exact .failed hc hlacks hurl
    | closed hshut => exact nomatch hc.symm.trans hshut
    | kept _ hclock => exact .renewed hc hlacks hurl hclock
    | brokeOff _ hclock => exact .brokeOff hc hlacks hurl hclock

end Resolves

variable {ρ : Type} {asks : ρ → Nat → Resolution ρ} {settings : CatalogSettings} {d : Desk ρ} {start node : Nat}
  {event : Event}

/-- Nobody else works on the catalog while the resolver is asked. -/
def Undisturbed (asks : ρ → Nat → Resolution ρ) : Prop := ∀ resolver node, (asks resolver node).meanwhile = []

theorem Undisturbed.resolves (halone : Undisturbed asks) (node : Nat) (d : Desk ρ) :
    Resolves (Record.ask asks) d.record.now node d.catalog d.record
      (d.resolve asks node).1 (d.resolve asks node).2.catalog (d.resolve asks node).2.record :=
  Catalog.resolves (Record.ask asks) (halone _ _) d.record.now d.catalog

/-! ### Entries and journal -/

theorem Event.url?_of_forgets (h : event.forgets node = true) : event.url? node = none := by
  cases event with
  | answered => cases h
  | invalidated => rfl
  | closed => rfl

theorem Event.not_forgets (h : event.regards node = false) : event.forgets node = false := by
  cases event with
  | answered => rfl
  | invalidated => exact h
  | closed => cases h

theorem Event.url?_of_not_regards (h : event.regards node = false) : event.url? node = none := by
  cases event with
  | answered n answer =>
    cases answer with
    | error => rfl
    | ok => exact if_neg (beq_eq_false_iff_ne.mp h)
  | invalidated => rfl
  | closed => cases h

/-- A clock can tell when a URL expires that is found by now. -/
def Desk.Timely (settings : CatalogSettings) (d : Desk ρ) : Prop :=
  d.record.now + settings.urlLifetime.nanos < Duration.clockEnd

theorem Desk.Timely.of_le {e : Desk ρ} (h : e.Timely settings) (hnow : d.record.now ≤ e.record.now) :
    d.Timely settings :=
  Nat.lt_of_le_of_lt (Nat.add_le_add_right hnow _) h

/-- An entry for a URL that was found between `start` and `now`. -/
structure Dated (settings : CatalogSettings) (start now : Nat) (entry : CachedUrl) : Prop where
  low : start + settings.urlLifetime.nanos ≤ entry.expires
  high : entry.expires ≤ now + settings.urlLifetime.nanos
  clock : entry.expires < Duration.clockEnd

theorem Dated.mono {now later : Nat} {entry : CachedUrl} (h : Dated settings start now entry) (hnow : now ≤ later) :
    Dated settings start later entry where
  low := h.low
  high := Nat.le_trans h.high (Nat.add_le_add_right hnow _)
  clock := h.clock

/-- As long as a clock can tell when URLs expire, the catalog has an entry for each node whose URL was found when it was
    last looked for. An entry is good for the lifetime of a URL from when it was found. -/
structure Agrees (settings : CatalogSettings) (start : Nat) (d : Desk ρ) : Prop where
  settings_eq : d.catalog.settings = settings
  start_le : start ≤ d.record.now
  closed : d.catalog.closed = true ↔ .closed ∈ d.record.journal
  barren : d.catalog.Sealed
  entries : d.Timely settings → ∀ node, (d.catalog.urls.get? node).map CachedUrl.url = lastUrl node d.record.journal
  dated : ∀ node entry, d.catalog.urls.get? node = some entry → Dated settings start d.record.now entry
  first : d.Timely settings → d.record.now < start + settings.urlLifetime.nanos → ∀ node,
    firstUrl node d.record.journal = lastUrl node d.record.journal

namespace Agrees

theorem fresh (settings : CatalogSettings) (start : Nat) (resolver : ρ) :
    Agrees settings start (Desk.fresh settings start resolver) where
  settings_eq := rfl
  start_le := Nat.le_refl _
  closed := iff_of_false Bool.false_ne_true List.not_mem_nil
  barren := fun hc => nomatch hc
  entries := fun _ _ => rfl
  dated := fun _ _ hentry => nomatch hentry
  first := fun _ _ _ => rfl

/-- While no entry expires, a node that lacks a URL has no entry. -/
theorem lastUrl_eq_none (h : Agrees settings start d) (htimely : d.Timely settings)
    (hnow : d.record.now < start + settings.urlLifetime.nanos)
    (hlacks : d.catalog.urls.Lacks d.record.now node) : lastUrl node d.record.journal = none := by
  rw [← h.entries htimely node, Option.map_eq_none_iff, Option.eq_none_iff_forall_ne_some]
  intro entry hentry
  exact absurd (Nat.lt_of_lt_of_le hnow (h.dated node entry hentry).low) (Nat.not_lt.mpr (hlacks entry hentry))

/-- If the clock cannot even tell when the first URL expires, there is no entry. -/
theorem get?_eq_none (h : Agrees settings start d) (hnever : Duration.clockEnd ≤ start + settings.urlLifetime.nanos)
    (node : Nat) : d.catalog.urls.get? node = none := by
  rw [Option.eq_none_iff_forall_ne_some]
  intro entry hentry
  have hdated := h.dated node entry hentry
  exact absurd (Nat.lt_of_le_of_lt hdated.low hdated.clock) (Nat.not_lt.mpr hnever)

/-- An event is noted. If the clock can still tell when URLs expire, there are the entries that the event makes known
    of the nodes that it regards. -/
theorem noted (h : Agrees settings start d) {c : Catalog} {record : Record ρ} (event : Event)
    (hjournal : record.journal = d.record.journal ++ [event]) (hnow : d.record.now ≤ record.now)
    (hsettings : c.settings = d.catalog.settings)
    (hclosed : c.closed = true ↔ d.catalog.closed = true ∨ event = .closed)
    (hbarren : c.Sealed)
    (hdated : ∀ node entry, c.urls.get? node = some entry →
      d.catalog.urls.get? node = some entry ∨ Dated settings start record.now entry)
    (hentries : Desk.Timely settings ⟨c, record⟩ → ∀ node, (c.urls.get? node).map CachedUrl.url =
      if event.regards node then event.url? node else (d.catalog.urls.get? node).map CachedUrl.url)
    (hfirst : Desk.Timely settings ⟨c, record⟩ → d.record.now < start + settings.urlLifetime.nanos → ∀ node,
      event.regards node = true → event.forgets node = false → lastUrl node d.record.journal = none) :
    Agrees settings start ⟨c, record⟩ where
  settings_eq := hsettings.trans h.settings_eq
  start_le := Nat.le_trans h.start_le hnow
  closed := by
    show c.closed = true ↔ .closed ∈ record.journal
    rw [hclosed, hjournal, List.mem_append, List.mem_singleton, h.closed, @eq_comm _ event]
  barren := hbarren
  entries := fun htimely node => by
    show (c.urls.get? node).map CachedUrl.url = lastUrl node record.journal
    rw [hjournal, lastUrl_concat, hentries htimely node, h.entries (htimely.of_le hnow)]
  dated := fun node entry hentry => by
    rcases hdated node entry hentry with hold | hnew
    · exact (h.dated node entry hold).mono hnow
    · exact hnew
  first := fun htimely hlt node => by
    have hlt' : d.record.now < start + settings.urlLifetime.nanos := Nat.lt_of_le_of_lt hnow hlt
    show firstUrl node record.journal = lastUrl node record.journal
    rw [hjournal, firstUrl_concat, lastUrl_concat, h.first (htimely.of_le hnow) hlt' node]
    cases hregards : event.regards node with
    | true =>
      cases hforgets : event.forgets node with
      | true => exact (event.url?_of_forgets hforgets).symm
      | false =>
        rw [hfirst htimely hlt' node hregards hforgets, Option.none_or]
        rfl
    | false =>
      rw [event.not_forgets hregards, event.url?_of_not_regards hregards, Option.or_none]

/-- A node loses its entry, if it has one. The event has no URL for it either, as long as the clock can tell when URLs
    expire. -/
theorem forgotten (h : Agrees settings start d) {record : Record ρ} (event : Event)
    (hjournal : record.journal = d.record.journal ++ [event]) (hnow : d.record.now ≤ record.now)
    (hevent : event ≠ .closed) (hregards : ∀ other, event.regards other = (node == other))
    (hurl : Desk.Timely settings ⟨(d.catalog.invalidate node).2, record⟩ → event.url? node = none)
    (hfirst : event.forgets node = false → d.Timely settings → d.record.now < start + settings.urlLifetime.nanos →
      lastUrl node d.record.journal = none) :
    Agrees settings start ⟨(d.catalog.invalidate node).2, record⟩ := by
  refine h.noted event hjournal hnow rfl ⟨Or.inl, fun hc => hc.resolve_right hevent⟩
    ((Changes.forgotten node).sealed h.barren) ?_ ?_ ?_
  · exact fun _ _ hentry => Or.inl (UrlCache.get?_of_erase hentry)
  · intro htimely other
    show ((d.catalog.urls.erase node).get? other).map CachedUrl.url = _
    rw [UrlCache.get?_erase, hregards]
    by_cases hother : other = node
    · simp [hother, hurl htimely]
    · rw [if_neg hother, if_neg (by simpa using Ne.symm hother)]
  · intro htimely hlt other hother hforgets
    obtain rfl : node = other := by simpa [hregards] using hother
    exact hfirst hforgets (htimely.of_le hnow) hlt

/-- Resolving notes what the resolver answers, if it is asked. -/
theorem resolve (h : Agrees settings start d) (halone : Undisturbed asks) (node : Nat) :
    Agrees settings start (d.resolve asks node).2 := by
  have hresolves := halone.resolves node d
  generalize d.resolve asks node = resolved at hresolves ⊢
  obtain ⟨answer, c, record⟩ := resolved
  cases hresolves with
  | closed => exact h
  | found => exact h
  | failed hc hlacks hurl =>
    refine h.forgotten (.answered node _) rfl (Nat.le_add_right _ _) nofun (fun _ => rfl) (fun _ => ?_)
      fun _ htimely hlt => h.lastUrl_eq_none htimely hlt hlacks
    show Event.url? node (.answered node (Record.ask asks d.record node).url) = none
    rw [hurl]
    rfl
  | brokeOff hc hlacks hurl hclock =>
    -- the URL is in the journal and not in the catalog, at a time when the two need not agree any more
    refine h.forgotten (.answered node _) rfl (Nat.le_add_right _ _) nofun (fun _ => rfl) (fun htimely => ?_)
      fun _ htimely hlt => h.lastUrl_eq_none htimely hlt hlacks
    rw [h.settings_eq] at hclock
    exact absurd htimely (Nat.not_lt.mpr hclock)
  | renewed hc hlacks hurl hclock =>
    rename_i url
    have hurl' : (asks d.record.resolver node).url = .ok url := hurl
    refine h.noted (.answered node _) rfl (Nat.le_add_right _ _) rfl
      ⟨Or.inl, fun hc' => hc'.resolve_right nofun⟩ (fun hc' => nomatch hc.symm.trans hc') ?_ ?_ ?_
    · intro other entry hentry
      change ((d.catalog.urls.erase node).insert node _).get? other = some entry at hentry
      rw [UrlCache.get?_insert] at hentry
      split at hentry
      · obtain rfl := Option.some.inj hentry
        rw [h.settings_eq] at hclock ⊢
        exact Or.inr ⟨Nat.add_le_add_right (Nat.le_trans h.start_le (Nat.le_add_right _ _)) _, Nat.le_refl _, hclock⟩
      · exact Or.inl (UrlCache.get?_of_erase hentry)
    · intro _ other
      show (((d.catalog.urls.erase node).insert node _).get? other).map CachedUrl.url = _
      rw [UrlCache.get?_insert, UrlCache.get?_erase, hurl']
      by_cases hother : other = node
      · simp [hother, Event.regards, Event.url?, Record.ask]
      · simp [hother, Ne.symm hother, Event.regards]
    · intro htimely hlt other hother _
      obtain rfl : node = other := by simpa [Event.regards] using hother
      exact h.lastUrl_eq_none (htimely.of_le (Nat.le_add_right _ _)) hlt hlacks

theorem close (h : Agrees settings start d) : Agrees settings start d.close := by
  have hurls := h.barren.urls_close
  have hget : ∀ node, d.catalog.close.urls.get? node = none := fun node => by
    rw [hurls]
    rfl
  refine h.noted .closed rfl (Nat.le_refl _) (settings_close _)
    (iff_of_true (closed_close _) (Or.inr rfl)) (fun _ => hurls) ?_ ?_ fun _ _ _ _ hforgets => nomatch hforgets
  · intro node entry hentry
    cases (hget node).symm.trans hentry
  · intro _ node
    rw [hget]
    rfl

theorem step (h : Agrees settings start d) (halone : Undisturbed asks) (call : Call) :
    Agrees settings start (d.step asks call) := by
  cases call with
  | resolve node => exact h.resolve halone node
  | openStream node size => exact h.resolve halone node
  | invalidate node =>
    exact h.forgotten (.invalidated node) rfl (Nat.le_refl _) nofun (fun _ => rfl) (fun _ => rfl) fun hforgets =>
      absurd rfl (beq_eq_false_iff_ne.mp hforgets)
  | close => exact h.close
  | wait nanos =>
    have hnow : d.record.now ≤ d.record.now + nanos := Nat.le_add_right _ _
    exact { h with
      start_le := Nat.le_trans h.start_le hnow
      entries := fun htimely => h.entries (htimely.of_le hnow)
      dated := fun node entry hentry => (h.dated node entry hentry).mono hnow
      first := fun htimely hlt => h.first (htimely.of_le hnow) (Nat.lt_of_le_of_lt hnow hlt) }

theorem after (h : Agrees settings start d) (halone : Undisturbed asks) (calls : List Call) :
    Agrees settings start (d.after asks calls) := by
  induction calls generalizing d with
  | nil => exact h
  | cons call calls ih => exact ih (h.step halone call)

end Agrees

/-! ### What a catalog answers -/

/-- What a call is told when the resolver has answered at `now`. Of a URL it is told only if a clock can tell when the
    URL expires. -/
def told (lifetime : Duration) (now : Nat) : Except Failure String → Option (Except Failure String)
  | .error cause => some (.error cause)
  | .ok url => if now + lifetime.nanos < Duration.clockEnd then some (.ok url) else none

/-- What looking for a node comes to where `known` is the URL at hand. -/
def Desk.sought (asks : ρ → Nat → Resolution ρ) (node : Nat) (d : Desk ρ) :
    Option String → Option (Except Failure String) × Record ρ
  | some url => (some (.ok url), d.record)
  | none =>
    let asked := d.record.ask asks node
    (told d.catalog.settings.urlLifetime asked.next.now asked.url, asked.next)

/-- What resolving a node comes to where `known` is the URL at hand: the URL, or else one answer of the resolver. A
    closed catalog does not ask. -/
def Desk.outcome (asks : ρ → Nat → Resolution ρ) (node : Nat) (known : Option String) (d : Desk ρ) :
    Option (Except Failure String) × Record ρ :=
  if .closed ∈ d.record.journal then (some (.error .closed), d.record) else d.sought asks node known

/-- The catalog hands out the URLs of `known`, asks for all others, and has entries for the nodes of `kept`. -/
structure Desk.Follows (asks : ρ → Nat → Resolution ρ) (known kept : Nat → Option String) (d : Desk ρ) : Prop where
  resolve : ∀ node, ((d.resolve asks node).1, (d.resolve asks node).2.record) = d.outcome asks node (known node)
  openStream : ∀ node size, ((d.openStream asks node size).1.map (Except.map Stream.url),
    (d.openStream asks node size).2.record) = d.outcome asks node (known node)
  invalidate : ∀ node, (d.invalidate node).1 = (kept node).isSome
  cachedUrls : d.catalog.cachedUrls = {node | kept node ≠ none}.ncard

theorem Desk.openStream_eq (asks : ρ → Nat → Resolution ρ) (node size : Nat) (d : Desk ρ) :
    d.openStream asks node size =
      ((d.resolve asks node).1.map (Except.map ((d.resolve asks node).2.catalog.streamOf node size)),
        (d.resolve asks node).2) := rfl

theorem Desk.url_openStream (asks : ρ → Nat → Resolution ρ) (node size : Nat) (d : Desk ρ) :
    (d.openStream asks node size).1.map (Except.map Stream.url) = (d.resolve asks node).1 := by
  rw [openStream_eq]
  rcases (d.resolve asks node).1 with _ | _ | url <;> rfl

namespace Agrees

theorem outcome (h : Agrees settings start d) (halone : Undisturbed asks) {known : Option String}
    (hfound : ∀ entry, d.catalog.urls.get? node = some entry → d.record.now < entry.expires →
      known = some entry.url)
    (hlacks : d.catalog.urls.Lacks d.record.now node → known = none) :
    ((d.resolve asks node).1, (d.resolve asks node).2.record) = d.outcome asks node known := by
  have hopen : d.catalog.closed = false → d.outcome asks node known = d.sought asks node known := fun hc =>
    if_neg fun hmem => nomatch hc.symm.trans (h.closed.mpr hmem)
  have hresolves := halone.resolves node d
  generalize d.resolve asks node = resolved at hresolves ⊢
  obtain ⟨answer, c, record⟩ := resolved
  cases hresolves with
  | closed hc => exact (if_pos (h.closed.mp hc)).symm
  | found hc hentry hgood =>
    rw [hopen hc, hfound _ hentry hgood]
    rfl
  | failed hc hnone hurl =>
    rw [hopen hc, hlacks hnone, Desk.sought, hurl]
    rfl
  | renewed hc hnone hurl hclock =>
    rw [hopen hc, hlacks hnone, Desk.sought, hurl]
    exact congrArg (·, _) (if_pos hclock).symm
  | brokeOff hc hnone hurl hclock =>
    rw [hopen hc, hlacks hnone, Desk.sought, hurl]
    exact congrArg (·, _) (if_neg (Nat.not_lt.mpr hclock)).symm

theorem follows (h : Agrees settings start d) (halone : Undisturbed asks) {known kept : Nat → Option String}
    (hkept : ∀ node, (d.catalog.urls.get? node).map CachedUrl.url = kept node)
    (hfound : ∀ node entry, d.catalog.urls.get? node = some entry → d.record.now < entry.expires →
      known node = some entry.url) (hlacks : ∀ node, d.catalog.urls.Lacks d.record.now node → known node = none) :
    d.Follows asks known kept where
  resolve := fun node => h.outcome halone (hfound node) (hlacks node)
  openStream := fun node size => by
    rw [Desk.url_openStream]
    exact h.outcome halone (hfound node) (hlacks node)
  invalidate := fun node => by
    rw [← hkept node, Option.isSome_map]
    rfl
  cachedUrls := by
    have hset : {node | kept node ≠ none} = {node | d.catalog.urls.get? node ≠ none} := by
      ext node
      simp only [Set.mem_ofPred_eq, ← hkept node, ne_eq, Option.map_eq_none_iff]
    rw [hset]
    exact d.catalog.urls.size_eq_ncard

/-- As long as no URL has expired, what was found last was found first. -/
theorem follows_first (h : Agrees settings start d) (halone : Undisturbed asks) (htimely : d.Timely settings)
    (hnow : d.record.now < start + settings.urlLifetime.nanos) :
    d.Follows asks (firstUrl · d.record.journal) (firstUrl · d.record.journal) := by
  have hkept : ∀ node, (d.catalog.urls.get? node).map CachedUrl.url = firstUrl node d.record.journal := fun node =>
    (h.entries htimely node).trans (h.first htimely hnow node).symm
  refine h.follows halone hkept (fun node entry hentry _ => ?_) fun node hlacks =>
    (h.first htimely hnow node).trans (h.lastUrl_eq_none htimely hnow hlacks)
  rw [← hkept node, hentry]
  rfl

/-- URLs that expire at once are of no use. -/
theorem follows_none (h : Agrees settings start d) (halone : Undisturbed asks) (htimely : d.Timely settings)
    (hzero : settings.urlLifetime.nanos = 0) : d.Follows asks (fun _ => none) (lastUrl · d.record.journal) := by
  refine h.follows halone (h.entries htimely) (fun node entry hentry hgood => ?_) fun _ _ => rfl
  have hends := (h.dated node entry hentry).high
  rw [hzero] at hends
  exact absurd hgood (Nat.not_lt.mpr hends)

/-- URLs that would expire when no clock can tell are not kept. -/
theorem follows_never (h : Agrees settings start d) (halone : Undisturbed asks)
    (hnever : Duration.clockEnd ≤ start + settings.urlLifetime.nanos) :
    d.Follows asks (fun _ => none) (fun _ => none) := by
  have hget := h.get?_eq_none hnever
  refine h.follows halone (fun node => by rw [hget]; rfl) (fun node entry hentry => ?_) fun _ _ => rfl
  cases (hget node).symm.trans hentry

/-- What fails is not kept, and what breaks off keeps nothing. -/
theorem get?_of_not_ok (h : Agrees settings start d) (halone : Undisturbed asks)
    (hnone : ∀ url, (d.resolve asks node).1 ≠ some (.ok url)) :
    (d.resolve asks node).2.catalog.urls.get? node = none := by
  have hresolves := halone.resolves node d
  generalize d.resolve asks node = resolved at hresolves hnone ⊢
  obtain ⟨answer, c, record⟩ := resolved
  cases hresolves with
  | closed hc => exact congrArg (fun urls => UrlCache.get? urls node) (h.barren hc)
  | found => exact absurd rfl (hnone _)
  | failed => exact (UrlCache.get?_erase _ _ _).trans (if_pos rfl)
  | renewed => exact absurd rfl (hnone _)
  | brokeOff => exact (UrlCache.get?_erase _ _ _).trans (if_pos rfl)

theorem of_closed (h : Agrees settings start d) (halone : Undisturbed asks)
    (hclosed : .closed ∈ d.record.journal) :
    d.catalog.cachedUrls = 0 ∧ ∀ node, d.resolve asks node = (some (.error .closed), d) ∧
      ∀ size, d.openStream asks node size = (some (.error .closed), d) := by
  have hc := h.closed.mpr hclosed
  suffices hresolve : ∀ node, d.resolve asks node = (some (.error .closed), d) by
    refine ⟨congrArg UrlCache.size (h.barren hc), fun node => ⟨hresolve node, fun size => ?_⟩⟩
    rw [Desk.openStream_eq, hresolve node]
    rfl
  intro node
  have hresolves := halone.resolves node d
  generalize d.resolve asks node = resolved at hresolves ⊢
  obtain ⟨answer, c, record⟩ := resolved
  cases hresolves with
  | closed => rfl
  | found hopen => exact nomatch hc.symm.trans hopen
  | failed hopen => exact nomatch hc.symm.trans hopen
  | renewed hopen => exact nomatch hc.symm.trans hopen
  | brokeOff hopen => exact nomatch hc.symm.trans hopen

end Agrees

/-! ### Other nodes -/

theorem Desk.get?_resolve_of_ne (halone : Undisturbed asks) {other : Nat}
    (hne : node ≠ other) (d : Desk ρ) :
    (d.resolve asks node).2.catalog.urls.get? other = d.catalog.urls.get? other := by
  have hresolves := halone.resolves node d
  generalize d.resolve asks node = resolved at hresolves ⊢
  obtain ⟨answer, c, record⟩ := resolved
  have herase : (d.catalog.urls.erase node).get? other = d.catalog.urls.get? other :=
    (UrlCache.get?_erase _ _ _).trans (if_neg hne.symm)
  cases hresolves with
  | closed => rfl
  | found => rfl
  | failed => exact herase
  | renewed => exact (UrlCache.get?_insert _ _ _ _).trans ((if_neg hne.symm).trans herase)
  | brokeOff => exact herase

theorem Desk.get?_step_of_spares (halone : Undisturbed asks) {call : Call}
    (hspares : call.spares node = true) (d : Desk ρ) :
    (d.step asks call).catalog.urls.get? node = d.catalog.urls.get? node := by
  cases call with
  | resolve n => exact d.get?_resolve_of_ne halone (bne_iff_ne.mp hspares)
  | openStream n size => exact d.get?_resolve_of_ne halone (bne_iff_ne.mp hspares)
  | invalidate n => exact (UrlCache.get?_erase _ _ _).trans (if_neg (bne_iff_ne.mp hspares).symm)
  | close => cases hspares
  | wait nanos => rfl

/-- However the owner of a catalog uses it, from `start` on. As long as a clock can tell when the URLs expire and none
    has expired, the URL of a node is the first one found since the node was last forgotten, the resolver is asked for
    no other, and the nodes with one are those that count; if URLs expire at once, the resolver is asked each time, and
    the nodes that were found when last looked for count. But if from `start` on no clock can tell when a URL expires,
    the resolver is asked each time, and a call for which it finds a URL breaks off. What is done to one node leaves
    the others alone, what fails or breaks off is not kept, and a closed catalog has no entry and asks nobody. -/
theorem answers_by_journal (asks : ρ → Nat → Resolution ρ) (halone : Undisturbed asks)
    (settings : CatalogSettings) (start : Nat) (resolver : ρ) (calls : List Call)
    (hd : d = (Desk.fresh settings start resolver).after asks calls) :
    (d.record.now + settings.urlLifetime.nanos < Duration.clockEnd →
        (d.record.now < start + settings.urlLifetime.nanos →
          d.Follows asks (firstUrl · d.record.journal) (firstUrl · d.record.journal)) ∧
        (settings.urlLifetime.nanos = 0 → d.Follows asks (fun _ => none) (lastUrl · d.record.journal))) ∧
      (Duration.clockEnd ≤ start + settings.urlLifetime.nanos → d.Follows asks (fun _ => none) (fun _ => none)) ∧
      (∀ call node, call.spares node = true →
        (d.step asks call).catalog.urls.get? node = d.catalog.urls.get? node) ∧
      (∀ node, (∀ url, (d.resolve asks node).1 ≠ some (.ok url)) →
        (d.resolve asks node).2.catalog.urls.get? node = none) ∧
      (.closed ∈ d.record.journal →
        d.catalog.cachedUrls = 0 ∧ ∀ node, d.resolve asks node = (some (.error .closed), d) ∧
          ∀ size, d.openStream asks node size = (some (.error .closed), d)) := by
  have hagrees : Agrees settings start d := hd ▸ (Agrees.fresh settings start resolver).after halone calls
  exact ⟨fun htimely => ⟨hagrees.follows_first halone htimely, hagrees.follows_none halone htimely⟩,
    hagrees.follows_never halone, fun _ _ hspares => d.get?_step_of_spares halone hspares,
    fun _ hnone => hagrees.get?_of_not_ok halone hnone, hagrees.of_closed halone⟩

/-- A resolver that gives the answers of a list, one after the other. -/
def inTurn (answers : List (Except Failure String)) (_ : Nat) : Resolution (List (Except Failure String)) :=
  ⟨answers.headD (.error .cancelled), 1, [], answers.tail⟩

theorem one_found_and_one_failed :
    ∃ d, d = (Desk.fresh .standard 5 [.ok "a", .error .cancelled, .ok "b"]).after inTurn
        [.resolve 1, .resolve 2, .openStream 1 8] ∧
      d.catalog.cachedUrls = {node | firstUrl node d.record.journal ≠ none}.ncard ∧
      (d.resolve inTurn 1).1 = some (.ok "a") ∧ (d.resolve inTurn 2).1 = some (.ok "b") ∧
      (d.step inTurn (.invalidate 2)).catalog.urls.get? 1 = d.catalog.urls.get? 1 := by
  obtain ⟨htimely, -, hspares, -⟩ := answers_by_journal inTurn (fun _ _ => rfl) .standard 5
    [.ok "a", .error .cancelled, .ok "b"] [.resolve 1, .resolve 2, .openStream 1 8] rfl
  obtain ⟨hlasting, -⟩ := htimely (by decide)
  have hfollows := hlasting (by decide)
  exact ⟨_, rfl, hfollows.cachedUrls, congrArg Prod.fst (hfollows.resolve 1), congrArg Prod.fst (hfollows.resolve 2),
    hspares (.invalidate 2) 1 rfl⟩

/-- A URL that is to be good for ever, so for the longest span with seconds in words, is found and handed to nobody. -/
theorem everlasting_url_breaks_off : ∃ settings : CatalogSettings,
    settings.urlLifetime = ⟨wordBound * Duration.perSecond - 1⟩ ∧
      ((Desk.fresh settings 0 [.ok "a"]).resolve inTurn 1).1 = none ∧
      ((Desk.fresh settings 0 [.ok "a"]).resolve inTurn 1).2.record.journal = [.answered 1 (.ok "a")] ∧
      ((Desk.fresh settings 0 [.ok "a"]).resolve inTurn 1).2.catalog.cachedUrls = 0 :=
  ⟨{ CatalogSettings.standard with urlLifetime := ⟨wordBound * Duration.perSecond - 1⟩ }, rfl, rfl, rfl, rfl⟩

end Catalog
end ReadAhead
