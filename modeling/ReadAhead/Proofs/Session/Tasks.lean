import ReadAhead.Proofs.Session.Orderly
import ReadAhead.Proofs.Session.Result

/-! What a step makes of the tasks, whoever owns the stream. At most one task moves on, and none does that is over; the
    others are only told of a change of the ring. A task is added at the end, when the owner starts a read or a
    closing. -/

namespace ReadAhead

/-- The length and the position that a read asks for. -/
def Task.wanted? : Task → Option (Nat × Nat)
  | .read r => some (r.len, r.position)
  | .close _ => none

@[simp] theorem Task.wanted?_wake (t : Task) : t.wake.wanted? = t.wanted? := by
  rcases t with ⟨len, position, wait, deadline, phase⟩ | c
  · cases phase <;> rfl
  · rfl

theorem Task.Onward.wanted? {old new : Task} (h : old.Onward new) : new.wanted? = old.wanted? := by
  cases h <;> rfl

namespace Session
variable {σ : Type} {origin : Origin σ} {may : Session σ → Act → Prop} {s t : Session σ}

inductive TaskStep (may : Session σ → Act → Prop) (s t : Session σ) : Prop
  | told (woke : Bool) (ht : t.tasks = s.tasks.map fun x => if woke then x.wake else x)
  | onward {i : Nat} {x new : Task} (woke : Bool) (hi : s.tasks[i]? = some x) (hgo : x.isOver = false)
    (hnew : x.Onward new) (ht : t.tasks = (s.tasks.map fun x => if woke then x.wake else x).set i new)
  | read {r : Reading} {timeout : Option Duration} (hmay : may s (.start r.len r.position timeout))
    (hdeadline : r.deadline = s.now + (s.stream.waitFor timeout).millisUp) (ht : t.tasks = s.tasks ++ [.read r])
    (hempty : ∀ d, (Task.read r).result? = some (.ok d) → d.bytes = ByteArray.empty)
  | close {c : Closing} (woke : Bool)
    (ht : t.tasks = (s.tasks.map fun x => if woke then x.wake else x) ++ [.close c]) (hshut : t.ring.isClosed = true)

theorem Orderly.taskStep_act {a : Act} (h : s.Orderly) (ha : may s a) : TaskStep may s (s.act a) := by
  cases a with
  | start len position timeout =>
    obtain ⟨r, rfl, rfl, hdeadline, ht, hempty⟩ := tasks_start s len position timeout
    exact .read ha hdeadline ht hempty
  | abandon i =>
    simp only [Session.act, Session.abandon]
    split
    · rename_i r hi
      split
      · exact .told false (by simp)
      · rename_i hgo
        exact .onward false hi (by simpa using hgo) (.read r .abandoned) (by simp)
    · exact .told false (by simp)
  | close =>
    simp only [Session.act, Session.startClose]
    split
    · exact .close (c := .done) false (by simp) (h.shut ‹_›)
    · refine .close (c := .queued) s.ring.close.woke ?_ (isClosed_expire s)
      rw [tasks_cancelAll, tasks_setRing]
  | letGo => exact .told false (by simp [Session.act, Session.letGo])

theorem Orderly.taskStep (h : s.Orderly) (hstep : Weave origin may s t) : TaskStep may s t := by
  cases hstep with
  | @move m hm =>
    cases m with
    | feed k =>
      obtain ⟨f, hk, hr⟩ := exists_of_feedReady hm
      have ht : Reringed s (s.feedStep origin k) _ := reringed_feedStep h.ring hk hr
      exact .told _ ht.tasks
    | task i =>
      obtain ⟨x, hi, hgo⟩ := (h.lined.mem_iff i).mp (List.mem_of_mem_head? hm.1)
      obtain ⟨new, honward, hmoved, -⟩ : ∃ new, x.Onward new ∧ Moved s (s.turn origin i) i new ∧ _ := h.moved_turn hi hm.2
      obtain ⟨woke, ht⟩ := hmoved.tasks
      exact .onward woke hi hgo honward ht
    | stream => exact .told _ (reringed_expire h.ring).tasks
  | wait => exact .told false (by simp)
  | act ha => exact h.taskStep_act ha

/-- Tasks stay what they are, and new ones come behind them. -/
theorem TaskStep.wanted (h : TaskStep may s t) :
    ∃ new, t.tasks.map Task.wanted? = s.tasks.map Task.wanted? ++ new := by
  have htold : ∀ woke : Bool, (s.tasks.map fun x => if woke then x.wake else x).map Task.wanted? =
      s.tasks.map Task.wanted? := by
    intro woke
    rw [List.map_map]
    congr 1
    funext x
    cases woke <;> simp
  cases h with
  | told woke ht => exact ⟨[], by rw [ht, htold, List.append_nil]⟩
  | @onward i x new woke hi hgo hnew ht =>
    refine ⟨[], ?_⟩
    have hmap : (s.tasks.map fun x => if woke then x.wake else x)[i]? = some (if woke then x.wake else x) := by
      rw [List.getElem?_map, hi]
      rfl
    rw [ht, map_set_of_eq hmap ?_, htold, List.append_nil]
    rw [hnew.wanted?]
    cases woke <;> simp
  | @read r _ _ _ ht => exact ⟨[(Task.read r).wanted?], by rw [ht, List.map_append]; rfl⟩
  | @close c woke ht => exact ⟨[(Task.close c).wanted?], by rw [ht, List.map_append, htold]; rfl⟩

/-- A task after a step was there before with the same wish, and not over if it is not over now; or the owner has
    just started it. -/
theorem TaskStep.back (h : TaskStep may s t) {j : Nat} {y : Task} (hj : t.tasks[j]? = some y) :
    (∃ x, s.tasks[j]? = some x ∧ y.wanted? = x.wanted? ∧ (y.isOver = false → x.isOver = false)) ∨
      j = s.tasks.length ∧ ((∃ r timeout, y = .read r ∧ may s (.start r.len r.position timeout)) ∨
        y.wanted? = none ∧ t.ring.isClosed = true) := by
  have htold : ∀ {woke : Bool}, (s.tasks.map fun x => if woke then x.wake else x)[j]? = some y →
      ∃ x, s.tasks[j]? = some x ∧ y.wanted? = x.wanted? ∧ (y.isOver = false → x.isOver = false) := by
    intro woke hmap
    rw [List.getElem?_map] at hmap
    obtain ⟨x, hx, rfl⟩ := Option.map_eq_some_iff.mp hmap
    refine ⟨x, hx, ?_, ?_⟩ <;> cases woke <;> simp
  cases h with
  | told woke ht =>
    rw [ht] at hj
    exact Or.inl (htold hj)
  | @onward i x new woke hi hgo hnew ht =>
    left
    rw [ht] at hj
    by_cases hij : i = j
    · subst hij
      rw [eq_of_getElem?_set hj]
      exact ⟨x, hi, hnew.wanted?, fun _ => hgo⟩
    · rw [List.getElem?_set_ne hij] at hj
      exact htold hj
  | @read r timeout hmay hdeadline ht hempty =>
    rw [ht] at hj
    rcases getElem?_push.mp hj with hold | ⟨rfl, rfl⟩
    · exact Or.inl ⟨y, hold, rfl, id⟩
    · exact Or.inr ⟨rfl, Or.inl ⟨r, timeout, rfl, hmay⟩⟩
  | close woke ht hshut =>
    rw [ht] at hj
    rcases getElem?_push.mp hj with hold | ⟨rfl, rfl⟩
    · exact Or.inl (htold hold)
    · exact Or.inr ⟨List.length_map .., Or.inr ⟨rfl, hshut⟩⟩

end Session
end ReadAhead
