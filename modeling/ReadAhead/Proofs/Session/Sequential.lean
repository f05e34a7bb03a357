import ReadAhead.Proofs.Session.Fidelity
import ReadAhead.Proofs.Session.Reserved
import ReadAhead.Proofs.Session.Tasks

/-! Reading on. An owner that starts one read after the other, each where the bytes of the reads before it end, gets the
    file from there on; and no feed is replaced for it but one that stopped too early (`Sequential`). It may ask for
    any number of bytes at a time, give reads up and repeat them, and close the stream or let go of it. -/

namespace ReadAhead

theorem Reading.phase_of_result? {r : Reading} {result : Except Failure Delivery}
    (h : (Task.read r).result? = some result) : r.phase = .done result := by
  simp only [Task.result?] at h
  split at h
  · rename_i hp
    rw [hp, Option.some.inj h]
  · cases h

/-- What is put in an empty place with only empty ones behind it, comes last. -/
theorem flatten_set {α : Type} {l : List (List α)} {i : Nat} (hi : l[i]? = some [])
    (hlater : ∀ j a, i < j → l[j]? = some a → a = []) (b : List α) : (l.set i b).flatten = l.flatten ++ b := by
  induction l generalizing i with
  | nil => cases hi
  | cons a l ih =>
    cases i with
    | zero =>
      obtain rfl : a = [] := Option.some.inj hi
      have hrest : l.flatten = [] := by
        rw [List.flatten_eq_nil_iff]
        intro x hx
        obtain ⟨j, hj⟩ := List.mem_iff_getElem?.mp hx
        exact hlater (j + 1) x (Nat.succ_pos j) hj
      rw [List.set_cons_zero, List.flatten_cons, List.flatten_cons, hrest, List.append_nil]
      rfl
    | succ i =>
      have hset := ih hi fun j x hj hx => hlater (j + 1) x (Nat.succ_lt_succ hj) hx
      rw [List.set_cons_succ, List.flatten_cons, List.flatten_cons, hset, List.append_assoc]

namespace Session
variable {σ : Type} {origin : Origin σ} {terms : Origin.Terms} {may : Session σ → Act → Prop} {s s₀ t : Session σ}
  {first i : Nat} {x new : Task}

/-- The bytes of all reads, in the order in which the reads were started. -/
def delivered (s : Session σ) : List UInt8 := (s.tasks.map Task.bytes).flatten

/-- Some read was told that its bytes reach the end of the file. -/
def AtEnd (s : Session σ) : Prop := ∃ x ∈ s.tasks, ∃ d, x.result? = some (.ok d) ∧ d.eof = true

/-- The owner reads on from `first`: it asks for a byte at least, where the bytes delivered so far end, once no other
    read is under way, and no more after it was told of the end of the file. -/
def ReadsOn (first : Nat) (s : Session σ) : Act → Prop
  | .start len position _ => 0 < len ∧ position = first + s.delivered.length ∧ ¬ s.AtEnd ∧
    ∀ r, .read r ∈ s.tasks → (Task.read r).isOver = true
  | _ => True

theorem bytes_told (woke : Bool) (tasks : List Task) :
    (tasks.map fun x => if woke then x.wake else x).map Task.bytes = tasks.map Task.bytes := by
  rw [List.map_map]
  congr 1
  funext x
  cases woke <;> simp

theorem delivered_told {woke : Bool} (ht : t.tasks = s.tasks.map fun x => if woke then x.wake else x) :
    t.delivered = s.delivered := by
  rw [delivered, ht, bytes_told]
  rfl

theorem Weave.atEnd (h : Weave origin may s t) (hs : s.AtEnd) : t.AtEnd := by
  obtain ⟨x, hx, d, hd, heof⟩ := hs
  obtain ⟨j, hj⟩ := List.mem_iff_getElem?.mp hx
  exact ⟨x, List.mem_of_getElem? (h.over hj (Task.isOver_of_result? hd)), d, hd, heof⟩

/-! ### What the reads of such an owner have in common -/

/-- At most one read is under way, the last one started, at the position where the delivered bytes end. -/
structure Sequential (terms : Origin.Terms) (first : Nat) (s : Session σ) : Prop where
  asks : ∀ x ∈ s.tasks, ∀ len position, x.wanted? = some (len, position) →
    0 < len ∧ (first < s.stream.size → position < s.stream.size)
  shut : ∀ x ∈ s.tasks, x.wanted? = none → s.ring.isClosed = true
  last : ∀ (i j : Nat) (x y : Task), s.tasks[i]? = some x → x.wanted?.isSome = true → x.isOver = false →
    s.tasks[j]? = some y → y.wanted?.isSome = true → j ≤ i
  next : ∀ x ∈ s.tasks, x.isOver = false → ∀ len position, x.wanted? = some (len, position) →
    position = first + s.delivered.length
  short : first < s.stream.size → ¬ s.AtEnd → first + s.delivered.length < s.stream.size
  byte : ∀ j b, s.delivered[j]? = some b → terms.byte (first + j) b

theorem IsNew.sequential (h : IsNew s) (terms : Origin.Terms) (first : Nat) : Sequential terms first s := by
  have hdelivered : s.delivered = [] := by
    rw [delivered, h.tasks_eq_nil]
    rfl
  refine ⟨?_, ?_, ?_, ?_, ?_, ?_⟩
  · intro x hx
    rw [h.tasks_eq_nil] at hx
    cases hx
  · intro x hx
    rw [h.tasks_eq_nil] at hx
    cases hx
  · intro i j x y hi
    rw [h.tasks_eq_nil] at hi
    cases hi
  · intro x hx
    rw [h.tasks_eq_nil] at hx
    cases hx
  · intro hfirst _
    rw [hdelivered]
    exact hfirst
  · intro j b hb
    rw [hdelivered] at hb
    cases hb

/-- What the read under way delivers comes behind all that was delivered before. -/
theorem Sequential.delivered_set (h : Sequential terms first s) (hi : s.tasks[i]? = some x)
    (hwanted : x.wanted?.isSome = true) (hgo : x.isOver = false) {woke : Bool}
    (ht : t.tasks = (s.tasks.map fun x => if woke then x.wake else x).set i new) :
    t.delivered = s.delivered ++ new.bytes := by
  rw [delivered, ht, List.map_set, bytes_told]
  apply flatten_set
  · rw [List.getElem?_map, hi, ← Task.bytes_of_not_over hgo]
    rfl
  · intro j a hij ha
    rw [List.getElem?_map] at ha
    obtain ⟨y, hy, rfl⟩ := Option.map_eq_some_iff.mp ha
    -- only closings can come behind it
    cases y with
    | read r => exact absurd (h.last i j x (.read r) hi hwanted hgo hy rfl) (Nat.not_le.mpr hij)
    | close c => rfl

/-- A step delivers nothing, or the bytes of the read under way, which is done then. -/
theorem Sequential.delivered_cases (h : Sequential terms first s) (hstep : TaskStep may s t) :
    t.delivered = s.delivered ∨ ∃ (i : Nat) (x : Task) (r : Reading) (d : Delivery), s.tasks[i]? = some x ∧
      x.isOver = false ∧ x.wanted? = some (r.len, r.position) ∧ t.tasks[i]? = some (.read r) ∧ r.phase = .done (.ok d) ∧
      t.delivered = s.delivered ++ d.bytes.data.toList := by
  cases hstep with
  | told woke ht => exact Or.inl (delivered_told ht)
  | @onward i x new woke hi hgo hnew ht =>
    cases hnew with
    | read r phase =>
      have hdelivered : t.delivered = _ := h.delivered_set hi rfl hgo ht
      by_cases hb : (Task.read { r with phase }).bytes = []
      · left
        rw [hdelivered, hb, List.append_nil]
      · right
        obtain ⟨d, hd⟩ := Task.exists_of_bytes hb
        rw [Task.bytes_of_ok hd] at hdelivered
        refine ⟨i, .read r, { r with phase }, d, hi, hgo, rfl, ?_, Reading.phase_of_result? hd, hdelivered⟩
        rw [ht, List.getElem?_set_self]
        rw [List.length_map]
        exact (List.getElem?_eq_some_iff.mp hi).1
    | close c c' =>
      left
      have hsame : (s.tasks.set i (.close c')).map Task.bytes = s.tasks.map Task.bytes := map_set_of_eq hi rfl
      rw [delivered, ht, List.map_set, bytes_told, ← List.map_set, hsame]
      rfl
  | @read r timeout hmay hdeadline ht hempty =>
    left
    have hb : (Task.read r).bytes = [] := by
      by_contra hne
      obtain ⟨d, hd⟩ := Task.exists_of_bytes hne
      rw [Task.bytes_of_ok hd, hempty d hd] at hne
      exact hne rfl
    rw [delivered, ht, List.map_append, List.flatten_append, List.map_singleton, hb]
    exact List.append_nil _
  | @close c woke ht hshut =>
    left
    rw [delivered, ht, List.map_append, List.flatten_append, bytes_told]
    exact List.append_nil _

/-- The read under way is done when it has got bytes, so none is under way then. -/
theorem Sequential.next_step (h : Sequential terms first s) (hstep : TaskStep (ReadsOn first) s t) (hx : x ∈ t.tasks)
    (hgo : x.isOver = false) {len position : Nat} (hwanted : x.wanted? = some (len, position)) :
    position = first + t.delivered.length := by
  obtain ⟨j, hj⟩ := List.mem_iff_getElem?.mp hx
  have hsome : x.wanted?.isSome = true := by
    rw [hwanted]
    rfl
  rcases hstep.back hj with ⟨y, hy, hsame, hback⟩ | ⟨rfl, ⟨r, timeout, rfl, -, hposition, -, hrest⟩ | ⟨hnone, -⟩⟩
  · have hposition := h.next y (List.mem_of_getElem? hy) (hback hgo) len position (hsame.symm.trans hwanted)
    rcases h.delivered_cases hstep with he | ⟨i, y', r, d, hy', hgo', hwanted', ht, hdone, -⟩
    · rw [he]
      exact hposition
    · rw [hsame] at hsome
      have hsome' : y'.wanted?.isSome = true := by
        rw [hwanted']
        rfl
      -- the read that got bytes is the one asked about, since no two are under way
      have hij := h.last j i y y' hy hsome (hback hgo) hy' hsome'
      have hji := h.last i j y' y hy' hsome' hgo' hy hsome
      obtain rfl : i = j := Nat.le_antisymm hij hji
      rw [ht] at hj
      obtain rfl := Option.some.inj hj
      simp only [Task.isOver, hdone] at hgo
      cases hgo
  · obtain ⟨-, rfl⟩ := Prod.mk.inj (Option.some.inj hwanted)
    rcases h.delivered_cases hstep with he | ⟨i, y, r', d, hy, hgo', hwanted', -⟩
    · rw [he]
      exact hposition
    · cases y with
      | read r' =>
        rw [hrest r' (List.mem_of_getElem? hy)] at hgo'
        cases hgo'
      | close c => cases hwanted'
  · rw [hnone] at hwanted
    cases hwanted

theorem Sequential.last_step (h : Sequential terms first s) (hstep : TaskStep (ReadsOn first) s t) {j : Nat} {y : Task}
    (hi : t.tasks[i]? = some x) (hx : x.wanted?.isSome = true) (hgo : x.isOver = false) (hj : t.tasks[j]? = some y)
    (hy : y.wanted?.isSome = true) : j ≤ i := by
  rcases hstep.back hj with ⟨y', hj', hsame', -⟩ | ⟨rfl, hnew⟩
  · rcases hstep.back hi with ⟨x', hi', hsame, hback⟩ | ⟨rfl, -⟩
    · rw [hsame] at hx
      rw [hsame'] at hy
      exact h.last i j x' y' hi' hx (hback hgo) hj' hy
    · exact Nat.le_of_lt (List.getElem?_eq_some_iff.mp hj').1
  · rcases hnew with ⟨r, timeout, rfl, -, -, -, hrest⟩ | ⟨hnone, -⟩
    · rcases hstep.back hi with ⟨x', hi', hsame, hback⟩ | ⟨rfl, -⟩
      · -- a read is started only when no other is under way
        cases x' with
        | read r' =>
          have hover := hrest r' (List.mem_of_getElem? hi')
          rw [hback hgo] at hover
          cases hover
        | close c =>
          rw [hsame] at hx
          cases hx
      · exact Nat.le_refl _
    · rw [hnone] at hy
      cases hy

theorem Sequential.asks_step (h : Sequential terms first s) (hstep : TaskStep (ReadsOn first) s t) (hx : x ∈ t.tasks)
    {len position : Nat} (hwanted : x.wanted? = some (len, position)) :
    0 < len ∧ (first < s.stream.size → position < s.stream.size) := by
  obtain ⟨j, hj⟩ := List.mem_iff_getElem?.mp hx
  rcases hstep.back hj with ⟨y, hy, hsame, -⟩ | ⟨-, ⟨r, timeout, rfl, hlen, hposition, hgoes, -⟩ | ⟨hnone, -⟩⟩
  · exact h.asks y (List.mem_of_getElem? hy) len position (hsame.symm.trans hwanted)
  · obtain ⟨rfl, rfl⟩ := Prod.mk.inj (Option.some.inj hwanted)
    refine ⟨hlen, fun hfirst => ?_⟩
    rw [hposition]
    exact h.short hfirst hgoes
  · rw [hnone] at hwanted
    cases hwanted

/-- A read that got bytes and was not told of the end ends before it. -/
theorem Sequential.short_weave (h : Sequential terms first s) (htask : TaskStep (ReadsOn first) s t)
    (hanswered : AllAnswered terms t) (hstep : Weave origin (ReadsOn first) s t) (hfirst : first < s.stream.size)
    (hgoes : ¬ t.AtEnd) : first + t.delivered.length < s.stream.size := by
  rcases h.delivered_cases htask with he | ⟨i, x, r, d, hx, hgo, hwanted, ht, hdone, he⟩
  · rw [he]
    exact h.short hfirst fun hend => hgoes (hstep.atEnd hend)
  · have hmem := List.mem_of_getElem? ht
    have hposition := h.next x (List.mem_of_getElem? hx) hgo _ _ hwanted
    have heof : d.eof = false := by
      by_contra htrue
      exact hgoes ⟨_, hmem, d, by simp only [Task.result?, hdone], by simpa using htrue⟩
    obtain ⟨hr, -⟩ := hanswered r d hmem hdone
    have hin : ¬ s.stream.size ≤ r.position + d.bytes.size := by
      rw [← hstep.stream]
      exact of_decide_eq_false (hr.eof.symm.trans heof)
    have hlength : d.bytes.data.toList.length = d.bytes.size := Array.length_toList.trans ByteArray.size_data
    rw [he, List.length_append, hlength, ← Nat.add_assoc, ← hposition]
    exact Nat.lt_of_not_le hin

theorem Sequential.byte_step (h : Sequential terms first s) (hstep : TaskStep (ReadsOn first) s t)
    (hanswered : AllAnswered terms t) {j : Nat} {b : UInt8} (hb : t.delivered[j]? = some b) :
    terms.byte (first + j) b := by
  rcases h.delivered_cases hstep with he | ⟨i, x, r, d, hx, hgo, hwanted, ht, hdone, he⟩
  · rw [he] at hb
    exact h.byte j b hb
  · rw [he, List.getElem?_append] at hb
    split at hb
    · exact h.byte j b hb
    · -- a byte of the read that is just done, counted from where the bytes before it end
      rename_i hlater
      have hposition := h.next x (List.mem_of_getElem? hx) hgo _ _ hwanted
      obtain ⟨hr, -⟩ := hanswered r d (List.mem_of_getElem? ht) hdone
      have hbyte := hr.byte (j - s.delivered.length) b (by simpa using hb)
      rw [hposition, Nat.add_assoc, Nat.add_sub_cancel' (Nat.le_of_not_lt hlater)] at hbyte
      exact hbyte

theorem Sequential.weave (h : Sequential terms first s) (horderly : s.Orderly) (hanswered : AllAnswered terms t)
    (hstep : Weave origin (ReadsOn first) s t) : Sequential terms first t := by
  have htask : TaskStep (ReadsOn first) s t := horderly.taskStep hstep
  refine ⟨?_, ?_, fun i j x y => h.last_step htask, fun x hx hgo len position => h.next_step htask hx hgo, ?_,
    fun j b => h.byte_step htask hanswered⟩
  · intro x hx len position hwanted
    rw [hstep.stream]
    exact h.asks_step htask hx hwanted
  · intro x hx hnone
    obtain ⟨j, hj⟩ := List.mem_iff_getElem?.mp hx
    rcases htask.back hj with ⟨y, hy, hsame, -⟩ | ⟨-, ⟨r, timeout, rfl, -⟩ | ⟨-, hshut⟩⟩
    · exact horderly.isClosed_weave (h.shut y (List.mem_of_getElem? hy) (hsame.symm.trans hnone)) hstep
    · cases hnone
    · exact hshut
  · intro hfirst hgoes
    rw [hstep.stream] at hfirst ⊢
    exact h.short_weave htask hanswered hstep hfirst hgoes

/-! ### The feeds behind them -/

/-- What the owner does delivers nothing by itself. -/
theorem Sequential.delivered_act {a : Act} (h : Sequential terms first s) (horderly : s.Orderly) (ha : may s a) :
    (s.act a).delivered = s.delivered := by
  rcases h.delivered_cases (horderly.taskStep_act ha) with he | ⟨i, x, r, d, hx, hgo, -, ht, hdone, he⟩
  · exact he
  · have hs : s.result? i = none := by rw [result?_of_task hx, Task.result?_of_not_over hgo]
    have hresult : (s.act a).result? i = some (.ok d) := result?_of_done ht hdone
    rw [he, gives_act hs hresult d rfl]
    exact List.append_nil _

/-- The turn of the read under way keeps the position reserved where the delivered bytes end. -/
theorem Sequential.reserved_turn {r : Reading} (h : Sequential terms first s) (horderly : s.Orderly)
    (hsupplied : Supplied origin terms s) (hmargin : s.stream.tier.margin < s.stream.tier.capacity)
    (hoffers : Offers origin (fun _ => terms) s.stream) (hi : s.tasks[i]? = some (.read r))
    (hready : s.taskReady i = true) (hs : Reserved origin terms s (first + s.delivered.length)) :
    Reserved origin terms (s.readStep origin i r) (first + (s.readStep origin i r).delivered.length) := by
  have hgo := isOver_eq_false_of_taskReady hi hready
  have hposition := h.next _ (List.mem_of_getElem? hi) hgo _ _ rfl
  have hturn : ReadTurn origin s i r (s.readStep origin i r) := horderly.readTurn hi hready
  obtain ⟨phase, hmoved, -⟩ := horderly.moved_readTurn hi hturn
  obtain ⟨woke, ht⟩ := hmoved.tasks
  rw [h.delivered_set hi rfl hgo ht, List.length_append, ← Nat.add_assoc, ← hposition]
  rw [← hposition] at hs
  exact hs.readTurn horderly hsupplied hmargin hoffers hi hgo hturn (hmoved.task (List.getElem?_eq_some_iff.mp hi).1)

/-- So does every other step, as long as it leaves the ring open. -/
theorem Sequential.reserved_weave (h : Sequential terms first s) (horderly : s.Orderly)
    (hsupplied : Supplied origin terms s) (hmargin : s.stream.tier.margin < s.stream.tier.capacity)
    (hoffers : Offers origin (fun _ => terms) s.stream)
    (hreserved : s.ring.isClosed = false → Reserved origin terms s (first + s.delivered.length))
    (hstep : Weave origin (ReadsOn first) s t) (hopen : t.ring.isClosed = false) :
    Reserved origin terms t (first + t.delivered.length) := by
  have hbefore : s.ring.isClosed = false := horderly.live hstep hopen
  have hs := hreserved hbefore
  cases hstep with
  | @move m hm =>
    cases m with
    | feed k =>
      obtain ⟨f, hk, hr⟩ := exists_of_feedReady hm
      have ht : Reringed s (s.feedStep origin k) _ := reringed_feedStep horderly.ring hk hr
      rw [Session.move, delivered_told ht.tasks]
      exact hs.feedStep horderly.ring hbefore hm
    | stream =>
      rw [Session.move, isClosed_expire] at hopen
      cases hopen
    | task i =>
      obtain ⟨x, hi, -⟩ := (horderly.lined.mem_iff i).mp (List.mem_of_mem_head? hm.1)
      cases x with
      | read r =>
        have he : s.move origin (.task i) = s.readStep origin i r := by
          rw [Session.move, Session.turn, hi]
        rw [he]
        exact h.reserved_turn horderly hsupplied hmargin hoffers hi hm.2 hs
      | close c =>
        -- a closing has closed the ring before it has its turn
        rw [h.shut _ (List.mem_of_getElem? hi) rfl] at hbefore
        cases hbefore
  | wait => exact hs.of_eq rfl rfl rfl rfl
  | @act a ha =>
    rw [h.delivered_act horderly ha]
    rcases steady_or_closes a s with hsteady | ⟨-, tasks, turns, he⟩
    · exact hs.of_eq hsteady.stream hsteady.ring hsteady.feeds hsteady.slot
    · rw [he] at hopen
      exact absurd (isClosed_expire s) (by simp [hopen])

theorem sequential_of_weaves (hnew : IsNew s₀) (hoffers : Offers origin (fun _ => terms) s₀.stream)
    (hweaves : Weaves origin (ReadsOn first) s₀ s) :
    Sequential terms first s ∧ (s.ring.isClosed = false → Reserved origin terms s (first + s.delivered.length)) := by
  induction hweaves with
  | refl =>
    refine ⟨hnew.sequential terms first, fun _ => ?_⟩
    refine reserved_of_short hnew.slot_eq_none fun f hf => ?_
    rw [hnew.feeds_eq_nil] at hf
    cases hf
  | tail hsu hstep ih =>
    obtain ⟨hsequential, hreserved⟩ := ih
    have horderly := hnew.orderly.weaves hsu
    have hsupplied := (hnew.supplied origin terms).weaves hnew.orderly hoffers hsu
    have hanswered := answered_of_weaves hnew hoffers (hsu.tail hstep)
    have hmargin := hnew.margin_lt
    rw [← stream_weaves hsu] at hoffers hmargin
    exact ⟨hsequential.weave horderly hanswered hstep,
      hsequential.reserved_weave horderly hsupplied hmargin hoffers hreserved hstep⟩

/-- A step starts no feed, or every feed has stopped short. -/
theorem Orderly.quiet_or_short {position : Nat} (h : s.Orderly)
    (hreserved : s.ring.isClosed = false → Reserved origin terms s position) (hstep : Weave origin may s t) :
    Quiet s t ∨ (∀ f ∈ s.feeds, f.Short terms s.stream.size) ∧ t.feeds.length ≤ s.feeds.length + 1 := by
  rcases h.quiet_or_restarts hstep with hquiet | ⟨hslot, i, r, -, hr⟩
  · exact Or.inl hquiet
  · cases hopen : s.ring.isClosed with
    | true => exact Or.inl (h.quiet_weave hopen hstep)
    | false => exact Or.inr ⟨(hreserved hopen).short hslot, hr.feeds_le.2⟩

/-- The feed in the slot stays there as long as the ring is open, unless a read that it cannot serve has its turn. -/
theorem Orderly.slot_or_stale {k : Nat} (h : s.Orderly)
    (hshut : ∀ x ∈ s.tasks, x.wanted? = none → s.ring.isClosed = true) (hstep : Weave origin may s t)
    (hslot : s.slot = some k) (hopen : t.ring.isClosed = false) :
    t.slot = some k ∨ ∃ r, .read r ∈ s.tasks ∧ (Task.read r).isOver = false ∧ s.isStale r = true := by
  cases h.stepCase hstep with
  | feed hk hr => exact Or.inl ((reringed_feedStep h.ring hk hr).slot.trans hslot)
  | @read i r _ _ hi hturn =>
    cases hturn with
    | closed => exact Or.inl (by rw [finish_eq, slot_endTask, hslot])
    | dismiss hp _ hstale => exact Or.inr ⟨r, List.mem_of_getElem? hi, by simp only [Task.isOver, hp], hstale⟩
    | restart hold => cases (h.slot_of_restart hi hold).symm.trans hslot
    | look _ hl => exact Or.inl (hl.slot.trans hslot)
    | late => exact Or.inl (by rw [finish_eq, slot_endTask, hslot])
  | close _ hi =>
    -- a closing has its turn only after it has closed the ring
    rw [isClosed_closeStep, hshut _ (List.mem_of_getElem? hi) rfl] at hopen
    cases hopen
  | expire => exact Or.inl ((reringed_expire h.ring).slot.trans hslot)
  | wait => exact Or.inl hslot
  | @act a _ =>
    left
    rcases steady_or_closes a s with ht | ⟨-, tasks, turns, he⟩
    · exact ht.slot.trans hslot
    · rw [he]
      exact (reringed_expire h.ring).slot.trans hslot

/-- So the owner that reads on has no feed taken out of the slot but one that has stopped short, and not because it was
    told to. -/
theorem Sequential.stopped_of_left {k : Nat} (h : Sequential terms first s) (horderly : s.Orderly)
    (hreserved : s.ring.isClosed = false → Reserved origin terms s (first + s.delivered.length))
    (hstep : Weave origin may s t) (hslot : s.slot = some k) (hleft : t.slot ≠ some k)
    (hopen : t.ring.isClosed = false) :
    ∃ f, s.feeds[k]? = some f ∧ f.cancelled = false ∧ f.Short terms s.stream.size := by
  rcases horderly.slot_or_stale h.shut hstep hslot hopen with hstays | ⟨r, hr, hgo, hstale⟩
  · exact absurd hstays hleft
  · have hs := hreserved (horderly.live hstep hopen)
    rw [← h.next _ hr hgo _ _ rfl] at hs
    exact hs.stopped_of_isStale hslot hstale

/-- Where the sources go on to the declared size, one feed is enough. -/
theorem feeds_le_one (hnew : IsNew s₀) (hoffers : Offers origin (fun _ => .reaching s₀.stream.size) s₀.stream)
    (hweaves : Weaves origin (ReadsOn first) s₀ s) : s.feeds.length ≤ 1 := by
  induction hweaves with
  | refl =>
    rw [hnew.feeds_eq_nil]
    exact Nat.zero_le 1
  | @tail u t hsu hstep ih =>
    obtain ⟨-, hreserved⟩ := sequential_of_weaves hnew hoffers hsu
    rcases (hnew.orderly.weaves hsu).quiet_or_short hreserved hstep with hquiet | ⟨hshort, hle⟩
    · rw [hquiet.feeds]
      exact ih
    · have hnone : u.feeds = [] := by
        rw [List.eq_nil_iff_forall_not_mem]
        intro f hf
        have hf := hshort f hf
        rw [stream_weaves hsu] at hf
        exact Feed.not_short_reaching hf
      rw [hnone] at hle
      exact hle

theorem AllAnswered.feeds_of_delivered (h : AllAnswered terms s) (hs : s.delivered ≠ []) : 0 < s.feeds.length := by
  obtain ⟨x, hx, hne⟩ : ∃ x ∈ s.tasks, x.bytes ≠ [] := by
    by_contra hno
    refine hs (List.flatten_eq_nil_iff.mpr fun l hl => ?_)
    obtain ⟨x, hx, rfl⟩ := List.mem_map.mp hl
    by_contra hne
    exact hno ⟨x, hx, hne⟩
  obtain ⟨d, hd⟩ := Task.exists_of_bytes hne
  cases x with
  | read r =>
    obtain ⟨-, hfed⟩ := h r d hx (Reading.phase_of_result? hd)
    refine hfed ?_
    rw [← Task.length_bytes_of_ok hd]
    exact List.length_pos_iff.mpr hne
  | close c => cases hd

/-- Let an owner read on from `first`, the steps being taken in any order. No read that is done is without bytes, but
    for the one that finds `first` at the end; the bytes are those of the file from `first` on; as long as the ring is
    open, no feed is taken out of the slot but one that has stopped below the declared size, and not because it was
    told to; and a connection is attempted only when every feed so far has stopped below it. So where the sources go on
    to that size, and are asked for a byte at least, there is one feed as soon as there is a byte, and never another. -/
theorem reads_on_through_file (hnew : IsNew s₀) (hs : Weaves origin (ReadsOn first) s₀ s) :
    (∀ r d, .read r ∈ s.tasks → r.phase = .done (.ok d) → d.eof = false ∨ first < s₀.stream.size → 0 < d.bytes.size) ∧
      (∀ content : Nat → UInt8,
        (∀ attempt start source, origin.connect s₀.stream.url attempt start = .ok source →
          ∀ limit, origin.Honours (.file content) limit start source) →
        s.delivered = (List.range' first s.delivered.length).map content) ∧
      (∀ t k, Weave origin (ReadsOn first) s t → s.slot = some k → t.slot ≠ some k → t.ring.isClosed = false →
        ∃ f, s.feeds[k]? = some f ∧ f.cancelled = false ∧ f.isStopped = true ∧
          f.start + f.copied < s₀.stream.size) ∧
      (∀ t, Weave origin (ReadsOn first) s t → t.attempts ≠ s.attempts →
        ∀ f ∈ s.feeds, f.isStopped = true ∧ f.start + f.copied < s₀.stream.size) ∧
      (0 < s₀.stream.scratch →
        (∀ attempt start source, origin.connect s₀.stream.url attempt start = .ok source →
          ∀ limit, 0 < limit → origin.Honours (.reaching s₀.stream.size) limit start source) →
        s.feeds.length ≤ 1 ∧ (s.delivered ≠ [] → s.feeds.length = 1)) := by
  have hanswered := answered_of_weaves hnew (offers_any origin s₀.stream) hs
  have hstream := stream_weaves hs
  obtain ⟨hany, hreserved⟩ := sequential_of_weaves hnew (offers_any origin s₀.stream) hs
  refine ⟨?_, ?_, ?_, ?_, ?_⟩
  · intro r d hr hdone hgoes
    obtain ⟨hlen, hposition⟩ := hany.asks _ hr _ _ rfl
    obtain ⟨hd, -⟩ := hanswered r d hr hdone
    refine hd.pos ?_ hlen
    rcases hgoes with heof | hfirst
    · rw [hd.eof, decide_eq_false_iff_not] at heof
      omega
    · rw [← hstream] at hfirst
      exact hposition hfirst
  · intro content hfile
    have hoffers : Offers origin (fun _ => .file content) s₀.stream :=
      fun attempt start source _ hconn => hfile attempt start source hconn _
    obtain ⟨hsequential, -⟩ := sequential_of_weaves hnew hoffers hs
    apply List.ext_getElem
    · rw [List.length_map, List.length_range']
    · intro j hj hj'
      have hbyte : s.delivered[j] = content (first + j) := hsequential.byte j _ (List.getElem?_eq_getElem hj)
      rw [hbyte, List.getElem_map, List.getElem_range', Nat.one_mul]
  · intro t k hstep hslot hleft hopen
    obtain ⟨f, hk, hgo, hshort⟩ := hany.stopped_of_left (hnew.orderly.weaves hs) hreserved hstep hslot hleft hopen
    have hbelow := hshort.below
    rw [hstream] at hbelow
    exact ⟨f, hk, hgo, hshort.stopped, hbelow⟩
  · intro t hstep hne f hf
    rcases (hnew.orderly.weaves hs).quiet_or_short hreserved hstep with hquiet | ⟨hshort, -⟩
    · exact absurd hquiet.attempts hne
    · have hf := hshort f hf
      rw [hstream] at hf
      exact ⟨hf.stopped, hf.below⟩
  · intro hscratch hreach
    have hoffers : Offers origin (fun _ => .reaching s₀.stream.size) s₀.stream := by
      intro attempt start source _ hconn
      have hcap := hnew.margin_lt
      exact hreach attempt start source hconn _ (by omega)
    have hle := feeds_le_one hnew hoffers hs
    exact ⟨hle, fun hne => Nat.le_antisymm hle (hanswered.feeds_of_delivered hne)⟩

/-- The first byte is read, and the source asked for the second one, which a file of one byte does not have. -/
def servedOnce (size : Nat) : Session Nat :=
  ((((twoBytes.start 1 0 none).turn (.counting size) 0).feedStep (.counting size) 0).feedStep (.counting size) 0).turn
    (.counting size) 0

/-- Then the second byte is to be read. -/
def secondWanted (size : Nat) : Session Nat := (servedOnce size).start 1 1 none

def readOn (size : Nat) : Session Nat := (secondWanted size).turn (.counting size) 1

theorem weaves_secondWanted {size : Nat} (hsize : size = 1 ∨ size = 2) :
    Weaves (.counting size) (ReadsOn 0) twoBytes (secondWanted size) := by
  have hfirst : twoBytes.ReadsOn 0 (.start 1 0 none) := by
    refine ⟨Nat.one_pos, rfl, ?_, ?_⟩
    · rintro ⟨x, hx, -⟩
      cases hx
    · intro r hr
      cases hr
  have hstart : Weaves (.counting size) (ReadsOn 0) twoBytes (twoBytes.start 1 0 none) := .single (.act hfirst)
  have hserved : Weaves (.counting size) (ReadsOn 0) twoBytes (servedOnce size) := by
    rcases hsize with rfl | rfl
    all_goals
      exact (((hstart.tail (.move (m := .task 0) ⟨rfl, rfl⟩)).tail (.move (m := .feed 0) rfl)).tail
        (.move (m := .feed 0) rfl)).tail (.move (m := .task 0) ⟨rfl, rfl⟩)
  obtain ⟨r, htasks, hdone⟩ : ∃ r, (servedOnce size).tasks = [.read r] ∧ r.phase = .done (.ok ⟨⟨#[0]⟩, false⟩) := by
    rcases hsize with rfl | rfl <;> exact ⟨_, rfl, rfl⟩
  have hsecond : (servedOnce size).ReadsOn 0 (.start 1 1 none) := by
    refine ⟨Nat.one_pos, ?_, ?_, ?_⟩
    · simp [delivered, htasks, Task.bytes, Task.result?, hdone]
    · simp [AtEnd, htasks, Task.result?, hdone]
    · simp [htasks, Task.isOver, hdone]
  exact hserved.tail (.act hsecond)

theorem weave_readOn {size : Nat} (hsize : size = 1 ∨ size = 2) :
    Weave (.counting size) (ReadsOn 0) (secondWanted size) (readOn size) := by
  rcases hsize with rfl | rfl <;> exact .move (m := .task 1) ⟨rfl, rfl⟩

theorem weaves_readOn {size : Nat} (hsize : size = 1 ∨ size = 2) :
    Weaves (.counting size) (ReadsOn 0) twoBytes (readOn size) :=
  (weaves_secondWanted hsize).tail (weave_readOn hsize)

/-- The source that ends after one byte is replaced, and the one that gives both is not. -/
theorem ended_source_is_replaced :
    ((secondWanted 1).slot = some 0 ∧ (readOn 1).slot = none ∧
      ∃ f, (secondWanted 1).feeds[0]? = some f ∧ f.cancelled = false ∧ f.isStopped = true ∧ f.start + f.copied < 2) ∧
    (∃ t, Weave (.counting 1) (ReadsOn 0) (readOn 1) t ∧ t.attempts ≠ (readOn 1).attempts ∧
      ∃ f, (readOn 1).feeds = [f] ∧ f.isStopped = true ∧ f.start + f.copied < 2) ∧
    (readOn 1).delivered = [0] ∧ (readOn 2).feeds.length = 1 := by
  have hnew : IsNew twoBytes := ⟨_, _, _, _, _, _, _, _, _, rfl, rfl⟩
  obtain ⟨-, -, hleft, -⟩ := reads_on_through_file hnew (weaves_secondWanted (Or.inl rfl))
  obtain ⟨-, hbytes, -, hshort, -⟩ := reads_on_through_file hnew (weaves_readOn (Or.inl rfl))
  obtain ⟨-, -, -, -, hone⟩ := reads_on_through_file hnew (weaves_readOn (Or.inr rfl))
  refine ⟨⟨rfl, rfl, hleft (readOn 1) 0 (weave_readOn (Or.inl rfl)) rfl nofun rfl⟩, ⟨(readOn 1).turn (.counting 1) 1, .move (m := .task 1) ⟨rfl, rfl⟩, by decide, ?_⟩, ?_, ?_⟩
  · obtain ⟨f, hf⟩ : ∃ f, (readOn 1).feeds = [f] := ⟨_, rfl⟩
    exact ⟨f, hf, hshort _ (.move (m := .task 1) ⟨rfl, rfl⟩) (by decide) f (by rw [hf]; exact List.mem_singleton_self f)⟩
  · refine (hbytes (fun p => UInt8.ofNat p) ?_).trans rfl
    intro attempt start source hconn limit
    obtain rfl : start = source := Except.ok.inj hconn
    exact Origin.counting_honours (fun _ _ => rfl) (fun _ _ => trivial) start
  · obtain ⟨-, hfed⟩ := hone Nat.one_pos fun attempt start source hconn limit hlimit => by
      obtain rfl : start = source := Except.ok.inj hconn
      exact Origin.counting_honours (fun _ _ => trivial) (fun p hp => hp.resolve_left (Nat.ne_of_gt hlimit)) start
    exact hfed (by decide)

end Session
end ReadAhead
