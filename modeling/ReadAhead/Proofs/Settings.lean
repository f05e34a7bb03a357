import ReadAhead.Proofs.Json.Reader
import ReadAhead.Settings.Json

/-! Settings survive being written as JSON and read back. A record is written with each of its fields once,
    so reading finds them all, in whatever order they are asked for (`fields?_object`); every kind of
    settings is then read back field by field. What 64 bits do not hold could not be written in the first
    place (`Fits`). -/

namespace ReadAhead

/-! ### Records -/

namespace Json
variable {members : List (Option String × Json)} {key name : String} {value : Json}

theorem field?_cons_self (h : ∀ m ∈ members, m.1 ≠ some name) : field? ((some name, value) :: members) name = some value := by
  have hrest : members.filter (·.1 == some name) = [] := by
    rw [List.filter_eq_nil_iff]
    intro m hm hsame
    exact h m hm (beq_iff_eq.mp hsame)
  rw [field?, List.filter_cons_of_pos (by simp), hrest]

theorem field?_cons_of_ne (h : key ≠ name) : field? ((some key, value) :: members) name = field? members name := by
  rw [field?, field?, List.filter_cons_of_neg (by simpa using h)]

theorem mapM_field?_cons {names : List String} (h : key ∉ names) :
    names.mapM (field? ((some key, value) :: members)) = names.mapM (field? members) := by
  induction names with
  | nil => rfl
  | cons name names ih =>
    obtain ⟨hne, hrest⟩ := not_or.mp (mt List.mem_cons.mpr h)
    rw [List.mapM_cons, List.mapM_cons, field?_cons_of_ne hne, ih hrest]

theorem mapM_field?_zip {names : List String} {values : List Json} (hnames : names.Nodup)
    (hlength : names.length = values.length) : names.mapM (field? ((names.map some).zip values)) = some values := by
  induction names generalizing values with
  | nil =>
    obtain rfl := List.eq_nil_of_length_eq_zero hlength.symm
    rfl
  | cons name names ih =>
    cases values with
    | nil => cases hlength
    | cons value values =>
      obtain ⟨hfirst, hrest⟩ := List.nodup_cons.mp hnames
      have hothers : ∀ m ∈ (names.map some).zip values, m.1 ≠ some name := by
        intro m hm hsame
        have hkey := (List.of_mem_zip hm).1
        rw [hsame] at hkey
        exact hfirst (by simpa using hkey)
      rw [List.map_cons, List.zip_cons_cons, List.mapM_cons, field?_cons_self hothers, mapM_field?_cons hfirst,
        ih hrest (Nat.succ.inj hlength)]
      rfl

/-- The fields of a record that was written are found. -/
theorem fields?_object {names : List String} {values : List Json} {exact : Bool}
    (hmembers : members = (names.map some).zip values) (hnames : names.Nodup) (hlength : names.length = values.length) :
    (object members).fields? names exact = some values := by
  have hknown : members.all (fun m => m.1.isSome && (!exact || m.1.any names.contains)) = true := by
    rw [List.all_eq_true]
    intro m hm
    rw [hmembers] at hm
    obtain ⟨name, hname, hkey⟩ := List.mem_map.mp (List.of_mem_zip hm).1
    simp [← hkey, hname]
  rw [fields?, if_pos hknown, hmembers, mapM_field?_zip hnames hlength]

theorem natural?_natural {bound n : Nat} (h : n < bound) : (natural n).natural? bound = some n := if_pos h

/-- Values that are each read back are read back as a list. -/
theorem mapM_map {α : Type} {write : α → Json} {read : Json → Option α} {xs : List α}
    (h : ∀ x ∈ xs, read (write x) = some x) : (xs.map write).mapM read = some xs := by
  induction xs with
  | nil => rfl
  | cons x xs ih =>
    rw [List.map_cons, List.mapM_cons, h x List.mem_cons_self, ih fun y hy => h y (List.mem_cons_of_mem _ hy)]
    rfl

end Json

/-! ### What 64 bits hold -/

/-- The seconds of the span fit in 64 bits. -/
def Duration.Fits (d : Duration) : Prop := d.seconds < wordBound

def TierRule.Fits (r : TierRule) : Prop := r.maxFileSize < wordBound ∧ r.capacity < wordBound

def TierPolicy.Fits (p : TierPolicy) : Prop :=
  (∀ r ∈ p.rules, r.Fits) ∧ p.fallbackCapacity < wordBound ∧ p.marginDivisor < wordBound ∧ p.maxMargin < wordBound

def ConnectionSettings.Fits (c : ConnectionSettings) : Prop := c.timeout.Fits ∧ c.connectTimeout.Fits

def StreamSettings.Fits (s : StreamSettings) : Prop :=
  s.readTimeout.Fits ∧ s.maxReadTimeout.Fits ∧ s.scratchSize < wordBound ∧ s.policy.Fits ∧ s.connection.Fits

def CatalogSettings.Fits (c : CatalogSettings) : Prop := c.urlLifetime.Fits ∧ c.stream.Fits

instance : DecidablePred Duration.Fits := fun d => inferInstanceAs (Decidable (d.seconds < wordBound))

instance : DecidablePred TierRule.Fits := fun r => inferInstanceAs (Decidable (r.maxFileSize < wordBound ∧ r.capacity < wordBound))

instance : DecidablePred TierPolicy.Fits := fun p =>
  inferInstanceAs (Decidable ((∀ r ∈ p.rules, r.Fits) ∧ p.fallbackCapacity < wordBound ∧ p.marginDivisor < wordBound ∧
    p.maxMargin < wordBound))

instance : DecidablePred ConnectionSettings.Fits := fun c => inferInstanceAs (Decidable (c.timeout.Fits ∧ c.connectTimeout.Fits))

instance : DecidablePred StreamSettings.Fits := fun s =>
  inferInstanceAs (Decidable (s.readTimeout.Fits ∧ s.maxReadTimeout.Fits ∧ s.scratchSize < wordBound ∧ s.policy.Fits ∧
    s.connection.Fits))

instance : DecidablePred CatalogSettings.Fits := fun c => inferInstanceAs (Decidable (c.urlLifetime.Fits ∧ c.stream.Fits))

/-! ### Reading back -/

theorem Duration.ofJson?_toJson {d : Duration} (h : d.Fits) : ofJson? d.toJson = some d := by
  have hfields : d.toJson.fields? ["secs", "nanos"] true = some [.natural d.seconds, .natural d.subsecond] :=
    Json.fields?_object rfl (by decide) rfl
  have hsubsecond : d.subsecond < 0x100000000 := by
    unfold subsecond perSecond
    omega
  have hwhole : (⟨d.seconds * perSecond + d.subsecond⟩ : Duration) = d := by
    rw [seconds, subsecond, Nat.div_add_mod']
  rw [ofJson?, Option.bind_eq_bind]
  refine Option.bind_eq_some_iff.mpr ⟨_, hfields, ?_⟩
  refine Option.bind_eq_some_iff.mpr ⟨_, Json.natural?_natural h, ?_⟩
  refine Option.bind_eq_some_iff.mpr ⟨_, Json.natural?_natural hsubsecond, ?_⟩
  simp only [hwhole]
  exact if_pos h

theorem TierRule.ofJson?_toJson {r : TierRule} (h : r.Fits) : ofJson? r.toJson = some r := by
  have hfields : r.toJson.fields? ["max_file_size", "capacity"] false = some [.natural r.maxFileSize, .natural r.capacity] :=
    Json.fields?_object rfl (by decide) rfl
  simp [ofJson?, hfields, Json.natural?_natural h.1, Json.natural?_natural h.2]

theorem TierPolicy.ofJson?_toJson {p : TierPolicy} (h : p.Fits) : ofJson? p.toJson = some p := by
  obtain ⟨hrules, hfallback, hdivisor, hmargin⟩ := h
  have hfields : p.toJson.fields? ["tiers", "fallback_capacity", "margin_divisor", "max_preload_margin"] false =
      some [.array (p.rules.map TierRule.toJson), .natural p.fallbackCapacity, .natural p.marginDivisor,
        .natural p.maxMargin] := Json.fields?_object rfl (by decide) rfl
  have hlist := Json.mapM_map fun r hr => TierRule.ofJson?_toJson (hrules r hr)
  simp [ofJson?, hfields, Json.items?, hlist, Json.natural?_natural hfallback, Json.natural?_natural hdivisor,
    Json.natural?_natural hmargin]

theorem headerOfJson?_headerToJson (header : String × String) : headerOfJson? (headerToJson header) = some header := rfl

theorem ConnectionSettings.ofJson?_toJson {c : ConnectionSettings} (h : c.Fits) : ofJson? c.toJson = some c := by
  have hfields : c.toJson.fields? ["timeout", "connect_timeout", "user_agent", "headers"] false =
      some [c.timeout.toJson, c.connectTimeout.toJson, .text c.userAgent, .array (c.headers.map headerToJson)] :=
    Json.fields?_object rfl (by decide) rfl
  have hlist := Json.mapM_map fun header (_ : header ∈ c.headers) => headerOfJson?_headerToJson header
  simp [ofJson?, hfields, Json.items?, Json.text?, hlist, Duration.ofJson?_toJson h.1, Duration.ofJson?_toJson h.2]

theorem StreamSettings.ofJson?_toJson {s : StreamSettings} (h : s.Fits) : ofJson? s.toJson = some s := by
  obtain ⟨hread, hmax, hscratch, hpolicy, hconnection⟩ := h
  have hfields : s.toJson.fields? ["read_timeout", "max_read_timeout", "scratch_size", "policy", "connection"] false =
      some [s.readTimeout.toJson, s.maxReadTimeout.toJson, .natural s.scratchSize, s.policy.toJson, s.connection.toJson] :=
    Json.fields?_object rfl (by decide) rfl
  simp [ofJson?, hfields, Duration.ofJson?_toJson hread, Duration.ofJson?_toJson hmax, Json.natural?_natural hscratch,
    TierPolicy.ofJson?_toJson hpolicy, ConnectionSettings.ofJson?_toJson hconnection]

namespace CatalogSettings

theorem ofJson?_toJson {c : CatalogSettings} (h : c.Fits) : ofJson? c.toJson = some c := by
  have hfields : c.toJson.fields? ["url_ttl", "stream"] false = some [c.urlLifetime.toJson, c.stream.toJson] :=
    Json.fields?_object rfl (by decide) rfl
  simp [ofJson?, hfields, Duration.ofJson?_toJson h.1, StreamSettings.ofJson?_toJson h.2]

/-- Settings are read back from the text that they are written as, the same in every field. So they pick the
    same tiers and wait as long. -/
theorem survives_json (c : CatalogSettings) (h : c.Fits) :
    ∃ back, (Json.parse? c.toJson.render).bind ofJson? = some back ∧ back = c ∧
      (∀ fileSize, back.stream.policy.tierFor fileSize = c.stream.policy.tierFor fileSize) ∧
      ∀ requested, back.stream.effectiveTimeout requested = c.stream.effectiveTimeout requested := by
  refine ⟨c, ?_, rfl, fun _ => rfl, fun _ => rfl⟩
  rw [Json.parse?_render, Option.bind_some, ofJson?_toJson h]

/-- The longest span, characters that are escaped, and an unsorted table with two rules of one size come back. -/
theorem escapes_and_ties_survive_json :
    let longest : Duration := ⟨wordBound * Duration.perSecond - 1⟩
    let rules : List TierRule := [⟨wordBound - 1, 7⟩, ⟨10, 5⟩, ⟨10, 6⟩]
    let connection : ConnectionSettings := ⟨longest, ⟨0⟩, "\"\\\n\x01é", [("a", "/"), ("a", "")]⟩
    let c : CatalogSettings := ⟨longest, longest, ⟨1⟩, 0, { TierPolicy.standard with rules }, connection⟩
    c.Fits ∧ ∃ back, (Json.parse? c.toJson.render).bind ofJson? = some back ∧ back = c := by
  intro longest rules connection c
  have hfits : c.Fits := by decide
  obtain ⟨back, hread, hsame, -⟩ := survives_json c hfits
  exact ⟨hfits, back, hread, hsame⟩

end CatalogSettings
end ReadAhead
