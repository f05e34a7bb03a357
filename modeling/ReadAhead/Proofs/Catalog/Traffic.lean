import Mathlib.Logic.Relation
import ReadAhead.Proofs.Catalog.Entries

/-! A catalog that many inquire of at once. An inquiry looks for a URL at hand, and may have to wait for the resolver;
    while it does, others go on, URLs are forgotten, and the catalog may be closed. What a resolver answers is kept even
    if the node was forgotten while it was asked, so what is known after a node was forgotten was answered by a call
    that was not over then (`Since`), though it may have begun before. -/

namespace ReadAhead
namespace Catalog

/-- How far an inquiry is. -/
inductive Stage
  /-- The resolver is being asked. -/
  | asking
  /-- It is over, and the resolver, if it was asked, gave this answer. -/
  | over (answer? : Option (Except Failure String)) (outcome : Except Failure String)
  /-- It broke off when the resolver gave this answer. -/
  | brokeOff (answer : Except Failure String)
  /-- It was given up while the resolver was asked. -/
  | dropped
  deriving DecidableEq

/-- A call for the URL of a node, or for a stream of it. -/
structure Inquiry where
  node : Nat
  /-- The size of the file, if a stream is wanted. -/
  size? : Option Nat
  stage : Stage
  deriving DecidableEq

namespace Inquiry

/-- What the resolver answered. -/
def answer? (i : Inquiry) : Option (Except Failure String) :=
  match i.stage with
  | .over answer? _ => answer?
  | .brokeOff answer => some answer
  | .asking | .dropped => none

/-- What the look for a URL came to. -/
def outcome? (i : Inquiry) : Option (Except Failure String) :=
  match i.stage with
  | .over _ outcome => some outcome
  | .asking | .brokeOff _ | .dropped => none

/-- The stream that was handed out. -/
def stream? (c : Catalog) (i : Inquiry) : Option Stream :=
  match i.size?, i.outcome? with
  | some size, some (.ok url) => some (c.streamOf i.node size url)
  | _, _ => none

/-- The URL that was handed out, be it with a stream. -/
def url? (c : Catalog) (i : Inquiry) : Option String :=
  match i.size? with
  | some _ => (i.stream? c).map Stream.url
  | none => i.outcome?.bind Except.toOption

end Inquiry

/-- A catalog, the time, and the inquiries so far in the order in which they began. -/
structure Traffic where
  catalog : Catalog
  now : Nat
  inquiries : List Inquiry

namespace Traffic

def fresh (settings : CatalogSettings) : Traffic := ⟨.fresh settings, 0, []⟩

/-- The stage of an inquiry that has looked for a URL at hand. -/
def stageOf : Except Failure (Option String) → Stage
  | .error cause => .over none (.error cause)
  | .ok (some url) => .over none (.ok url)
  | .ok none => .asking

/-- An inquiry begins, and goes on until it is over or the resolver is asked. -/
def begin (node : Nat) (size? : Option Nat) (t : Traffic) : Traffic where
  catalog := (t.catalog.consult t.now node).2
  now := t.now
  inquiries := t.inquiries ++ [⟨node, size?, stageOf (t.catalog.consult t.now node).1⟩]

/-- The stage of an inquiry that has been answered, and what came of it. -/
def stageWith (answer : Except Failure String) : Option (Except Failure String) → Stage
  | some outcome => .over (some answer) outcome
  | none => .brokeOff answer

/-- The resolver answers an inquiry. -/
def answer (i : Nat) (inquiry : Inquiry) (answer : Except Failure String) (t : Traffic) : Traffic where
  catalog := (t.catalog.conclude t.now inquiry.node answer).2
  now := t.now
  inquiries := t.inquiries.set i
    { inquiry with stage := stageWith answer (t.catalog.conclude t.now inquiry.node answer).1 }

def drop (i : Nat) (inquiry : Inquiry) (t : Traffic) : Traffic :=
  { t with inquiries := t.inquiries.set i { inquiry with stage := .dropped } }

def invalidate (node : Nat) (t : Traffic) : Traffic := { t with catalog := (t.catalog.invalidate node).2 }

def close (t : Traffic) : Traffic := { t with catalog := t.catalog.close }

inductive Step (t : Traffic) : Traffic → Prop
  | begin (node : Nat) (size? : Option Nat) : Step t (t.begin node size?)
  | answer {i : Nat} {inquiry : Inquiry} (hi : t.inquiries[i]? = some inquiry) (hasking : inquiry.stage = .asking)
    (answer : Except Failure String) : Step t (t.answer i inquiry answer)
  | drop {i : Nat} {inquiry : Inquiry} (hi : t.inquiries[i]? = some inquiry) (hasking : inquiry.stage = .asking) :
    Step t (t.drop i inquiry)
  | invalidate (node : Nat) : Step t (t.invalidate node)
  | close : Step t t.close
  | wait {now : Nat} (hle : t.now ≤ now) : Step t { t with now }

abbrev Reaches : Traffic → Traffic → Prop := Relation.ReflTransGen Step

variable {s t u : Traffic} {node : Nat} {url : String}

/-- The answer is noted, whatever came of it. -/
theorem answer?_stageWith (i : Inquiry) (answer : Except Failure String) (outcome? : Option (Except Failure String)) :
    ({ i with stage := stageWith answer outcome? } : Inquiry).answer? = some answer := by
  cases outcome? <;> rfl

theorem outcome?_stageWith (i : Inquiry) (answer : Except Failure String) (outcome? : Option (Except Failure String)) :
    ({ i with stage := stageWith answer outcome? } : Inquiry).outcome? = outcome? := by
  cases outcome? <;> rfl

theorem stageWith_ne_asking (answer : Except Failure String) (outcome? : Option (Except Failure String)) :
    stageWith answer outcome? ≠ .asking := by
  cases outcome? <;> nofun

/-! ### What a step does to an inquiry -/

/-- Where an inquiry that handed a URL out has it from. -/
inductive Handed (t : Traffic) (j : Nat) (inquiry : Inquiry) (url : String) : Prop
  /-- It was over before. -/
  | before (hj : t.inquiries[j]? = some inquiry)
  /-- It began just now, and the URL was at hand. -/
  | found {entry : CachedUrl} (hj : t.inquiries.length = j) (hentry : t.catalog.urls.get? inquiry.node = some entry)
    (hurl : entry.url = url)
  /-- It has just been answered. -/
  | answered {asked : Inquiry} (hj : t.inquiries[j]? = some asked) (hasking : asked.stage = .asking)
    (hanswer : inquiry.answer? = some (.ok url)) (hopen : t.catalog.closed = false)

theorem getElem?_set_cases {α : Type} {l : List α} {i j : Nat} {x y : α} (h : (l.set i x)[j]? = some y) :
    (j = i ∧ y = x) ∨ (j ≠ i ∧ l[j]? = some y) := by
  by_cases hj : i = j
  · subst hj
    rw [List.getElem?_set_self'] at h
    obtain ⟨-, -, rfl⟩ := Option.map_eq_some_iff.mp h
    exact Or.inl ⟨rfl, rfl⟩
  · rw [List.getElem?_set_ne hj] at h
    exact Or.inr ⟨Ne.symm hj, h⟩

theorem getElem?_concat_cases {α : Type} {l : List α} {j : Nat} {x y : α} (h : (l ++ [x])[j]? = some y) :
    (l.length = j ∧ y = x) ∨ l[j]? = some y := by
  rw [List.getElem?_append] at h
  split at h
  · exact Or.inr h
  · rw [List.getElem?_singleton] at h
    split at h
    · exact Or.inl ⟨by omega, (Option.some.inj h).symm⟩
    · cases h

theorem Step.handed (h : Step t u) {j : Nat} {inquiry : Inquiry} (hj : u.inquiries[j]? = some inquiry)
    (hurl : inquiry.outcome? = some (.ok url)) : Handed t j inquiry url := by
  cases h with
  | begin node size? =>
    rcases getElem?_concat_cases hj with ⟨hlast, rfl⟩ | hj
    · have hconsults := consults t.now node t.catalog
      generalize t.catalog.consult t.now node = found at hconsults hurl
      obtain ⟨found, c⟩ := found
      cases hconsults with
      | closed => cases hurl
      | found hc hentry => exact .found hlast hentry (Except.ok.inj (Option.some.inj hurl))
      | missed => cases hurl
    · exact .before hj
  | @answer i asked hi hasking answer =>
    rcases getElem?_set_cases hj with ⟨rfl, rfl⟩ | ⟨-, hj⟩
    · have hconcludes := concludes t.now asked.node t.catalog answer
      rw [outcome?_stageWith] at hurl
      have hanswer := answer?_stageWith asked answer (t.catalog.conclude t.now asked.node answer).1
      generalize t.catalog.conclude t.now asked.node answer = concluded at hconcludes hurl hanswer
      obtain ⟨outcome, c⟩ := concluded
      cases hconcludes with
      | failed => cases hurl
      | closed => cases hurl
      | kept hc =>
        obtain rfl := Except.ok.inj (Option.some.inj hurl)
        exact .answered hi hasking hanswer hc
      | brokeOff => cases hurl
    · exact .before hj
  | drop hi hasking =>
    rcases getElem?_set_cases hj with ⟨rfl, rfl⟩ | ⟨-, hj⟩
    · cases hurl
    · exact .before hj
  | invalidate node => exact .before hj
  | close => exact .before hj
  | wait => exact .before hj

/-- An inquiry stays, and one that does not wait for the resolver stays as it is. -/
theorem Step.inquiry (h : Step t u) {k : Nat} {before : Inquiry} (hk : t.inquiries[k]? = some before) :
    ∃ later, u.inquiries[k]? = some later ∧ later.node = before.node ∧
      (before.stage ≠ .asking → later = before) := by
  have hset : ∀ {i : Nat} {asked x : Inquiry}, t.inquiries[i]? = some asked → asked.stage = .asking →
      x.node = asked.node → ∃ later, (t.inquiries.set i x)[k]? = some later ∧ later.node = before.node ∧
        (before.stage ≠ .asking → later = before) := by
    intro i asked x hi hasking hnode
    by_cases hik : i = k
    · subst hik
      obtain rfl := Option.some.inj (hi.symm.trans hk)
      exact ⟨x, List.getElem?_set_self (List.getElem?_eq_some_iff.mp hk).1, hnode, fun hne => absurd hasking hne⟩
    · exact ⟨before, (List.getElem?_set_ne hik).trans hk, rfl, fun _ => rfl⟩
  cases h with
  | begin =>
    exact ⟨before, (List.getElem?_append_left (List.getElem?_eq_some_iff.mp hk).1).trans hk, rfl, fun _ => rfl⟩
  | answer hi hasking => exact hset hi hasking rfl
  | drop hi hasking => exact hset hi hasking rfl
  | invalidate => exact ⟨before, hk, rfl, fun _ => rfl⟩
  | close => exact ⟨before, hk, rfl, fun _ => rfl⟩
  | wait => exact ⟨before, hk, rfl, fun _ => rfl⟩

/-- An entry is an old one, or was answered just now. -/
theorem Step.entry (h : Step t u) {entry : CachedUrl} (hentry : u.catalog.urls.get? node = some entry) :
    t.catalog.urls.get? node = some entry ∨ ∃ (i : Nat) (asked later : Inquiry),
      t.inquiries[i]? = some asked ∧ asked.stage = .asking ∧ u.inquiries[i]? = some later ∧ later.node = node ∧
        later.answer? = some (.ok entry.url) := by
  cases h with
  | begin n size? =>
    refine Or.inl ?_
    have hconsults := consults t.now n t.catalog
    change (t.catalog.consult t.now n).2.urls.get? node = some entry at hentry
    generalize t.catalog.consult t.now n = found at hconsults hentry
    obtain ⟨found, c⟩ := found
    cases hconsults with
    | closed => exact hentry
    | found => exact hentry
    | missed => exact UrlCache.get?_of_erase hentry
  | @answer i asked hi hasking answer =>
    have hconcludes := concludes t.now asked.node t.catalog answer
    change (t.catalog.conclude t.now asked.node answer).2.urls.get? node = some entry at hentry
    generalize t.catalog.conclude t.now asked.node answer = concluded at hconcludes hentry
    obtain ⟨outcome, c⟩ := concluded
    cases hconcludes with
    | failed => exact Or.inl hentry
    | closed => exact Or.inl hentry
    | kept =>
      change (t.catalog.urls.insert asked.node _).get? node = some entry at hentry
      rw [UrlCache.get?_insert] at hentry
      split at hentry
      · next hnode =>
        obtain rfl := Option.some.inj hentry
        exact Or.inr ⟨i, asked, _, hi, hasking,
          List.getElem?_set_self (List.getElem?_eq_some_iff.mp hi).1, hnode.symm, answer?_stageWith _ _ _⟩
      · exact Or.inl hentry
    | brokeOff => exact Or.inl hentry
  | drop => exact Or.inl hentry
  | invalidate n => exact Or.inl (UrlCache.get?_of_erase hentry)
  | close =>
    refine Or.inl ?_
    change t.catalog.close.urls.get? node = some entry at hentry
    rw [Catalog.close] at hentry
    split at hentry
    · exact hentry
    · cases hentry
  | wait => exact Or.inl hentry

theorem Step.changes (h : Step t u) : Changes t.catalog u.catalog := by
  cases h with
  | begin n size? =>
    have hconsults := consults t.now n t.catalog
    show Changes t.catalog (t.catalog.consult t.now n).2
    generalize t.catalog.consult t.now n = found at hconsults
    obtain ⟨found, c⟩ := found
    cases hconsults with
    | closed => exact .same
    | found => exact .same
    | missed => exact .forgotten n
  | @answer i asked hi hasking answer =>
    have hconcludes := concludes t.now asked.node t.catalog answer
    show Changes t.catalog (t.catalog.conclude t.now asked.node answer).2
    generalize t.catalog.conclude t.now asked.node answer = concluded at hconcludes
    obtain ⟨outcome, c⟩ := concluded
    cases hconcludes with
    | failed => exact .same
    | closed => exact .same
    | kept hc => exact .kept hc _ _
    | brokeOff => exact .same
  | drop => exact .same
  | invalidate n => exact .forgotten n
  | close => exact .closed
  | wait => exact .same

theorem sealed_of_reaches {settings : CatalogSettings} (h : Reaches (fresh settings) t) :
    t.catalog.Sealed := by
  induction h with
  | refl => exact fun _ => rfl
  | tail _ hstep ih => exact hstep.changes.sealed ih

theorem Step.length_le (h : Step t u) : t.inquiries.length ≤ u.inquiries.length := by
  by_contra hlt
  rw [Nat.not_le] at hlt
  obtain ⟨later, hlater, -⟩ := h.inquiry (List.getElem?_eq_getElem hlt)
  rw [List.getElem?_eq_none (Nat.le_refl _)] at hlater
  cases hlater

/-! ### After a node was forgotten -/

/-- The call of the resolver for an inquiry was not over in `s`. -/
def Open (s : Traffic) (k : Nat) : Prop := ∀ before, s.inquiries[k]? = some before → before.stage = .asking

theorem open_of_length_le {k : Nat} (h : s.inquiries.length ≤ k) : s.Open k := fun before hbefore => by
  rw [List.getElem?_eq_none h] at hbefore
  cases hbefore

/-- A call that was not over in `s` has answered the URL for the node. -/
def Since (s : Traffic) (node : Nat) (url : String) (t : Traffic) : Prop :=
  ∃ (k : Nat) (asked : Inquiry),
    s.Open k ∧ t.inquiries[k]? = some asked ∧ asked.node = node ∧ asked.answer? = some (.ok url)

theorem Since.step (h : Since s node url t) (hstep : Step t u) : Since s node url u := by
  obtain ⟨k, asked, hk, hasked, hnode, hanswer⟩ := h
  obtain ⟨later, hlater, -, hsame⟩ := hstep.inquiry hasked
  have hover : asked.stage ≠ .asking := fun hasking => by
    simp [Inquiry.answer?, hasking] at hanswer
  obtain rfl := hsame hover
  exact ⟨k, _, hk, hlater, hnode, hanswer⟩

/-- What is known of a node, and what was handed out for it to those that began after `s`, was answered since. -/
structure Renewed (s : Traffic) (node : Nat) (t : Traffic) : Prop where
  length_le : s.inquiries.length ≤ t.inquiries.length
  asking : ∀ k inquiry, t.inquiries[k]? = some inquiry → inquiry.stage = .asking → s.Open k
  entry : ∀ entry, t.catalog.urls.get? node = some entry → Since s node entry.url t
  handed : ∀ j inquiry url, s.inquiries.length ≤ j → t.inquiries[j]? = some inquiry → inquiry.node = node →
    inquiry.outcome? = some (.ok url) → Since s node url t

theorem renewed_invalidate (s : Traffic) (node : Nat) : Renewed s node (s.invalidate node) where
  length_le := Nat.le_refl _
  asking := fun k inquiry hk hasking before hbefore => by
    obtain rfl := Option.some.inj (hk.symm.trans hbefore)
    exact hasking
  entry := fun entry hentry => by
    change (s.catalog.urls.erase node).get? node = some entry at hentry
    rw [UrlCache.get?_erase, if_pos rfl] at hentry
    cases hentry
  handed := fun j inquiry url hj hinquiry => by
    change s.inquiries[j]? = some inquiry at hinquiry
    rw [List.getElem?_eq_none hj] at hinquiry
    cases hinquiry

theorem Renewed.step (h : Renewed s node t) (hstep : Step t u) : Renewed s node u where
  length_le := Nat.le_trans h.length_le hstep.length_le
  asking := fun k inquiry hk hasking => by
    cases hold : t.inquiries[k]? with
    | none => exact open_of_length_le (Nat.le_trans h.length_le (List.getElem?_eq_none_iff.mp hold))
    | some before =>
      obtain ⟨later, hlater, -, hsame⟩ := hstep.inquiry hold
      obtain rfl := Option.some.inj (hlater.symm.trans hk)
      by_cases hbefore : before.stage = .asking
      · exact h.asking k before hold hbefore
      · exact absurd (hsame hbefore ▸ hasking) hbefore
  entry := fun entry hentry => by
    rcases hstep.entry hentry with hold | ⟨i, asked, later, hi, hasking, hlater, hnode, hanswer⟩
    · exact (h.entry entry hold).step hstep
    · exact ⟨i, later, h.asking i asked hi hasking, hlater, hnode, hanswer⟩
  handed := fun j inquiry url hj hinquiry hnode hurl => by
    cases hstep.handed hinquiry hurl with
    | before hold => exact (h.handed j inquiry url hj hold hnode hurl).step hstep
    | found _ hentry hsame => exact hsame ▸ (h.entry _ (hnode ▸ hentry)).step hstep
    | answered hold hasking hanswer => exact ⟨j, inquiry, h.asking j _ hold hasking, hinquiry, hnode, hanswer⟩

theorem renewed_of_reaches (h : Reaches (s.invalidate node) t) : Renewed s node t := by
  induction h with
  | refl => exact renewed_invalidate s node
  | tail _ hstep ih => exact ih.step hstep

/-! ### After the catalog was closed -/

/-- The catalog is closed, and who inquires or waits for the resolver since `s` gets nothing. -/
structure Shut (s t : Traffic) : Prop where
  closed : t.catalog.closed = true
  urls : t.catalog.urls = .empty
  refused : ∀ j inquiry url, s.Open j → t.inquiries[j]? = some inquiry → inquiry.outcome? ≠ some (.ok url)

theorem shut_close (h : s.catalog.Sealed) : Shut s s.close where
  closed := closed_close _
  urls := h.urls_close
  refused := fun j inquiry url hopen hj hurl => by
    have hasking := hopen inquiry hj
    simp [Inquiry.outcome?, hasking] at hurl

theorem Shut.step (h : Shut s t) (hstep : Step t u) : Shut s u where
  closed := hstep.changes.closed_of_closed h.closed
  urls := hstep.changes.sealed (fun _ => h.urls) (hstep.changes.closed_of_closed h.closed)
  refused := fun j inquiry url hopen hj hurl => by
    cases hstep.handed hj hurl with
    | before hold => exact h.refused j inquiry url hopen hold hurl
    | found _ hentry =>
      rw [h.urls] at hentry
      cases hentry
    | answered _ _ _ hc => exact nomatch hc.symm.trans h.closed

theorem shut_of_reaches (hs : s.catalog.Sealed) (h : Reaches s.close t) : Shut s t := by
  induction h with
  | refl => exact shut_close hs
  | tail _ hstep ih => exact ih.step hstep

/-! ### One resolution -/

theorem reaches_interrupt (interruptions : List Interruption) (t : Traffic) :
    Reaches t { t with catalog := interruptions.foldl interrupt t.catalog } := by
  induction interruptions generalizing t with
  | nil => exact .refl
  | cons interruption interruptions ih =>
    refine .head ?_ (ih { t with catalog := t.catalog.interrupt interruption })
    cases interruption with
    | invalidate node => exact .invalidate node
    | close => exact .close

/-- A resolution goes through these steps, with what others do while the resolver is asked in between. -/
theorem reaches_resolve {ρ : Type} (asks : ρ → Nat → Resolution ρ) (resolver : ρ) (node : Nat) (size? : Option Nat)
    (t : Traffic) : ∃ u inquiry, Reaches t u ∧ u.catalog = (t.catalog.resolve asks t.now node resolver).2.1 ∧
      u.inquiries = t.inquiries ++ [inquiry] ∧ inquiry.node = node ∧ inquiry.size? = size? ∧
      inquiry.stage ≠ .asking ∧ inquiry.outcome? = (t.catalog.resolve asks t.now node resolver).1 := by
  have hbegin : Step t (t.begin node size?) := .begin node size?
  unfold resolve
  rcases hfound : t.catalog.consult t.now node with ⟨_ | _ | url, c⟩
  · exact ⟨_, _, .single hbegin, congrArg Prod.snd hfound, rfl, rfl, rfl, by rw [hfound]; nofun, by rw [hfound]; rfl⟩
  · let asked : Traffic := { t.begin node size? with
      catalog := (asks resolver node).meanwhile.foldl interrupt (t.begin node size?).catalog
      now := t.now + (asks resolver node).delay }
    have hreaches : Reaches t asked :=
      ((Relation.ReflTransGen.single hbegin).trans (reaches_interrupt _ _)).tail (.wait (Nat.le_add_right _ _))
    have hasked : asked.inquiries[t.inquiries.length]? = some ⟨node, size?, .asking⟩ := by
      show (t.inquiries ++ [⟨node, size?, stageOf (t.catalog.consult t.now node).1⟩])[t.inquiries.length]? = _
      rw [hfound]
      exact List.getElem?_concat_length
    have hcatalog : asked.catalog = (asks resolver node).meanwhile.foldl interrupt c := by
      show (asks resolver node).meanwhile.foldl interrupt (t.catalog.consult t.now node).2 = _
      rw [hfound]
    refine ⟨_, ⟨node, size?, stageWith (asks resolver node).url
      (asked.catalog.conclude asked.now node (asks resolver node).url).1⟩,
      hreaches.tail (.answer hasked rfl (asks resolver node).url), ?_, ?_, rfl, rfl, stageWith_ne_asking _ _, ?_⟩
    · show (asked.catalog.conclude _ node _).2 = _
      rw [hcatalog]
    · show (t.inquiries ++ [_]).set t.inquiries.length _ = _
      rw [List.set_append_right _ _ (Nat.le_refl _), Nat.sub_self]
      rfl
    · rw [outcome?_stageWith ⟨node, size?, .asking⟩, hcatalog]
  · exact ⟨_, _, .single hbegin, congrArg Prod.snd hfound, rfl, rfl, rfl, by rw [hfound]; nofun, by rw [hfound]; rfl⟩

/-! ### What is handed out -/

theorem url?_eq (c : Catalog) (i : Inquiry) : i.url? c = i.outcome?.bind Except.toOption := by
  unfold Inquiry.url? Inquiry.stream?
  cases i.size? with
  | none => rfl
  | some size =>
    cases i.outcome? with
    | none => rfl
    | some outcome => cases outcome <;> rfl

theorem url?_eq_some {c : Catalog} {i : Inquiry} : i.url? c = some url ↔ i.outcome? = some (.ok url) := by
  rw [url?_eq]
  cases i.outcome? with
  | none => simp
  | some outcome => cases outcome <;> simp [Except.toOption]

/-- However a catalog is used, and in whatever order those who inquire go on: once a node is forgotten, those who
    inquire of it later get a URL that was answered by a call of the resolver that was not over when the node was
    forgotten; and once the catalog is closed it keeps no URL, and nobody who inquires, or waits for the resolver by
    then, is given one. -/
theorem forgotten_url_is_sought_again {settings : CatalogSettings} (hs : Reaches (fresh settings) s) :
    (∀ node t, Reaches (s.invalidate node) t → ∀ j inquiry url, s.inquiries.length ≤ j →
        t.inquiries[j]? = some inquiry → inquiry.node = node → inquiry.url? t.catalog = some url →
        Since s node url t) ∧
      (∀ t, Reaches s.close t → t.catalog.cachedUrls = 0 ∧
        ∀ j inquiry, s.Open j → t.inquiries[j]? = some inquiry → inquiry.url? t.catalog = none) := by
  refine ⟨fun node t ht j inquiry url hj hinquiry hnode hurl => ?_, fun t ht => ?_⟩
  · exact (renewed_of_reaches ht).handed j inquiry url hj hinquiry hnode (url?_eq_some.mp hurl)
  · have hshut := shut_of_reaches (sealed_of_reaches hs) ht
    refine ⟨congrArg UrlCache.size hshut.urls, fun j inquiry hopen hj => ?_⟩
    rw [Option.eq_none_iff_forall_ne_some]
    exact fun url hurl => hshut.refused j inquiry url hopen hj (url?_eq_some.mp hurl)

/-- A node has been resolved. -/
def oneResolved : Traffic := ((fresh .standard).begin 1 none).answer 0 ⟨1, none, .asking⟩ (.ok "old")

theorem reaches_oneResolved : Reaches (fresh .standard) oneResolved :=
  (Relation.ReflTransGen.single (.begin 1 none)).tail (.answer rfl rfl _)

theorem old_url_is_replaced : ∃ t, Reaches (oneResolved.invalidate 1) t ∧
    t.inquiries[2]? = some ⟨1, some 8, .over none (.ok "new")⟩ ∧ Since oneResolved 1 "new" t := by
  have hreaches : Reaches (oneResolved.invalidate 1)
      ((((oneResolved.invalidate 1).begin 1 none).answer 1 ⟨1, none, .asking⟩ (.ok "new")).begin 1 (some 8)) :=
    ((Relation.ReflTransGen.single (.begin 1 none)).tail (.answer rfl rfl _)).tail (.begin 1 (some 8))
  obtain ⟨hforgotten, -⟩ := forgotten_url_is_sought_again reaches_oneResolved
  exact ⟨_, hreaches, rfl, hforgotten 1 _ hreaches 2 _ "new" (by decide) rfl rfl rfl⟩

/-- But an inquiry that waits for the resolver while its node is forgotten brings back what it is told: the URL is then
    handed out to those who inquire later, though no call of the resolver that began since has answered. -/
theorem forgotten_url_comes_back : ∃ s t : Traffic, Reaches (fresh .standard) s ∧ Reaches (s.invalidate 1) t ∧
    (∃ later, t.inquiries[s.inquiries.length]? = some later ∧ later.node = 1 ∧ later.url? t.catalog = some "old") ∧
    ∀ k asked, s.inquiries.length ≤ k → t.inquiries[k]? = some asked → asked.answer? = none := by
  refine ⟨(fresh .standard).begin 1 none,
    ((((fresh .standard).begin 1 none).invalidate 1).answer 0 ⟨1, none, .asking⟩ (.ok "old")).begin 1 none,
    .single (.begin 1 none), (Relation.ReflTransGen.single (.answer rfl rfl _)).tail (.begin 1 none),
    ⟨_, rfl, rfl, rfl⟩, fun k asked hk hasked => ?_⟩
  match k, hk with
  | 1, _ =>
    obtain rfl := Option.some.inj hasked
    rfl
  | k + 2, _ => cases hasked

end Traffic
end Catalog
end ReadAhead
