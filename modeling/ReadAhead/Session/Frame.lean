import ReadAhead.Session

/-! What the parts of a step leave as it is, and what they put in its place. -/

namespace ReadAhead
namespace Session
variable {σ : Type} (s : Session σ)

/-! ### `setRing` -/

@[simp] theorem stream_setRing (ring : Ring) (woke : Bool) : (s.setRing ring woke).stream = s.stream := by
  unfold setRing
  split <;> rfl
@[simp] theorem now_setRing (ring : Ring) (woke : Bool) : (s.setRing ring woke).now = s.now := by
  unfold setRing
  split <;> rfl
@[simp] theorem attempts_setRing (ring : Ring) (woke : Bool) : (s.setRing ring woke).attempts = s.attempts := by
  unfold setRing
  split <;> rfl
@[simp] theorem slot_setRing (ring : Ring) (woke : Bool) : (s.setRing ring woke).slot = s.slot := by
  unfold setRing
  split <;> rfl
@[simp] theorem mark_setRing (ring : Ring) (woke : Bool) : (s.setRing ring woke).mark = s.mark := by
  unfold setRing
  split <;> rfl
@[simp] theorem closed_setRing (ring : Ring) (woke : Bool) : (s.setRing ring woke).closed = s.closed := by
  unfold setRing
  split <;> rfl
@[simp] theorem held_setRing (ring : Ring) (woke : Bool) : (s.setRing ring woke).held = s.held := by
  unfold setRing
  split <;> rfl
@[simp] theorem turns_setRing (ring : Ring) (woke : Bool) : (s.setRing ring woke).turns = s.turns := by
  unfold setRing
  split <;> rfl

/-! ### `note` -/

@[simp] theorem stream_note (mark : Mark) : (s.note mark).stream = s.stream := by unfold note; split <;> rfl
@[simp] theorem now_note (mark : Mark) : (s.note mark).now = s.now := by unfold note; split <;> rfl
@[simp] theorem attempts_note (mark : Mark) : (s.note mark).attempts = s.attempts := by unfold note; split <;> rfl
@[simp] theorem ring_note (mark : Mark) : (s.note mark).ring = s.ring := by unfold note; split <;> rfl
@[simp] theorem feeds_note (mark : Mark) : (s.note mark).feeds = s.feeds := by unfold note; split <;> rfl
@[simp] theorem slot_note (mark : Mark) : (s.note mark).slot = s.slot := by unfold note; split <;> rfl
@[simp] theorem closed_note (mark : Mark) : (s.note mark).closed = s.closed := by unfold note; split <;> rfl
@[simp] theorem held_note (mark : Mark) : (s.note mark).held = s.held := by unfold note; split <;> rfl
@[simp] theorem tasks_note (mark : Mark) : (s.note mark).tasks = s.tasks := by unfold note; split <;> rfl
@[simp] theorem turns_note (mark : Mark) : (s.note mark).turns = s.turns := by unfold note; split <;> rfl

/-! ### `setTask` -/

@[simp] theorem stream_setTask (i : Nat) (task : Task) : (s.setTask i task).stream = s.stream := rfl
@[simp] theorem now_setTask (i : Nat) (task : Task) : (s.setTask i task).now = s.now := rfl
@[simp] theorem attempts_setTask (i : Nat) (task : Task) : (s.setTask i task).attempts = s.attempts := rfl
@[simp] theorem ring_setTask (i : Nat) (task : Task) : (s.setTask i task).ring = s.ring := rfl
@[simp] theorem feeds_setTask (i : Nat) (task : Task) : (s.setTask i task).feeds = s.feeds := rfl
@[simp] theorem slot_setTask (i : Nat) (task : Task) : (s.setTask i task).slot = s.slot := rfl
@[simp] theorem mark_setTask (i : Nat) (task : Task) : (s.setTask i task).mark = s.mark := rfl
@[simp] theorem closed_setTask (i : Nat) (task : Task) : (s.setTask i task).closed = s.closed := rfl
@[simp] theorem held_setTask (i : Nat) (task : Task) : (s.setTask i task).held = s.held := rfl
@[simp] theorem turns_setTask (i : Nat) (task : Task) : (s.setTask i task).turns = s.turns := rfl

/-! ### `endTask` -/

@[simp] theorem stream_endTask (i : Nat) (task : Task) : (s.endTask i task).stream = s.stream := rfl
@[simp] theorem now_endTask (i : Nat) (task : Task) : (s.endTask i task).now = s.now := rfl
@[simp] theorem attempts_endTask (i : Nat) (task : Task) : (s.endTask i task).attempts = s.attempts := rfl
@[simp] theorem ring_endTask (i : Nat) (task : Task) : (s.endTask i task).ring = s.ring := rfl
@[simp] theorem feeds_endTask (i : Nat) (task : Task) : (s.endTask i task).feeds = s.feeds := rfl
@[simp] theorem slot_endTask (i : Nat) (task : Task) : (s.endTask i task).slot = s.slot := rfl
@[simp] theorem mark_endTask (i : Nat) (task : Task) : (s.endTask i task).mark = s.mark := rfl
@[simp] theorem closed_endTask (i : Nat) (task : Task) : (s.endTask i task).closed = s.closed := rfl
@[simp] theorem held_endTask (i : Nat) (task : Task) : (s.endTask i task).held = s.held := rfl

/-! ### `setFeed` -/

@[simp] theorem stream_setFeed (k : Nat) (feed : Feed σ) : (s.setFeed k feed).stream = s.stream := rfl
@[simp] theorem now_setFeed (k : Nat) (feed : Feed σ) : (s.setFeed k feed).now = s.now := rfl
@[simp] theorem attempts_setFeed (k : Nat) (feed : Feed σ) : (s.setFeed k feed).attempts = s.attempts := rfl
@[simp] theorem ring_setFeed (k : Nat) (feed : Feed σ) : (s.setFeed k feed).ring = s.ring := rfl
@[simp] theorem slot_setFeed (k : Nat) (feed : Feed σ) : (s.setFeed k feed).slot = s.slot := rfl
@[simp] theorem mark_setFeed (k : Nat) (feed : Feed σ) : (s.setFeed k feed).mark = s.mark := rfl
@[simp] theorem closed_setFeed (k : Nat) (feed : Feed σ) : (s.setFeed k feed).closed = s.closed := rfl
@[simp] theorem held_setFeed (k : Nat) (feed : Feed σ) : (s.setFeed k feed).held = s.held := rfl
@[simp] theorem tasks_setFeed (k : Nat) (feed : Feed σ) : (s.setFeed k feed).tasks = s.tasks := rfl
@[simp] theorem turns_setFeed (k : Nat) (feed : Feed σ) : (s.setFeed k feed).turns = s.turns := rfl

/-! ### `dismiss` -/

@[simp] theorem stream_dismiss (old : Nat) : (s.dismiss old).stream = s.stream := rfl
@[simp] theorem now_dismiss (old : Nat) : (s.dismiss old).now = s.now := rfl
@[simp] theorem attempts_dismiss (old : Nat) : (s.dismiss old).attempts = s.attempts := rfl
@[simp] theorem ring_dismiss (old : Nat) : (s.dismiss old).ring = s.ring := rfl
@[simp] theorem mark_dismiss (old : Nat) : (s.dismiss old).mark = s.mark := rfl
@[simp] theorem closed_dismiss (old : Nat) : (s.dismiss old).closed = s.closed := rfl
@[simp] theorem held_dismiss (old : Nat) : (s.dismiss old).held = s.held := rfl
@[simp] theorem tasks_dismiss (old : Nat) : (s.dismiss old).tasks = s.tasks := rfl
@[simp] theorem turns_dismiss (old : Nat) : (s.dismiss old).turns = s.turns := rfl

/-! ### `install` -/

@[simp] theorem stream_install (source : σ) (start : Nat) : (s.install source start).stream = s.stream := rfl
@[simp] theorem now_install (source : σ) (start : Nat) : (s.install source start).now = s.now := rfl
@[simp] theorem attempts_install (source : σ) (start : Nat) : (s.install source start).attempts = s.attempts := rfl
@[simp] theorem ring_install (source : σ) (start : Nat) : (s.install source start).ring = s.ring := rfl
@[simp] theorem mark_install (source : σ) (start : Nat) : (s.install source start).mark = s.mark := rfl
@[simp] theorem closed_install (source : σ) (start : Nat) : (s.install source start).closed = s.closed := rfl
@[simp] theorem held_install (source : σ) (start : Nat) : (s.install source start).held = s.held := rfl
@[simp] theorem tasks_install (source : σ) (start : Nat) : (s.install source start).tasks = s.tasks := rfl
@[simp] theorem turns_install (source : σ) (start : Nat) : (s.install source start).turns = s.turns := rfl

/-! ### `countAttempt` -/

@[simp] theorem stream_countAttempt : (s.countAttempt).stream = s.stream := rfl
@[simp] theorem now_countAttempt : (s.countAttempt).now = s.now := rfl
@[simp] theorem ring_countAttempt : (s.countAttempt).ring = s.ring := rfl
@[simp] theorem feeds_countAttempt : (s.countAttempt).feeds = s.feeds := rfl
@[simp] theorem slot_countAttempt : (s.countAttempt).slot = s.slot := rfl
@[simp] theorem mark_countAttempt : (s.countAttempt).mark = s.mark := rfl
@[simp] theorem closed_countAttempt : (s.countAttempt).closed = s.closed := rfl
@[simp] theorem held_countAttempt : (s.countAttempt).held = s.held := rfl
@[simp] theorem tasks_countAttempt : (s.countAttempt).tasks = s.tasks := rfl
@[simp] theorem turns_countAttempt : (s.countAttempt).turns = s.turns := rfl

/-! ### `cancelAll` -/

@[simp] theorem stream_cancelAll : (s.cancelAll).stream = s.stream := rfl
@[simp] theorem now_cancelAll : (s.cancelAll).now = s.now := rfl
@[simp] theorem attempts_cancelAll : (s.cancelAll).attempts = s.attempts := rfl
@[simp] theorem ring_cancelAll : (s.cancelAll).ring = s.ring := rfl
@[simp] theorem slot_cancelAll : (s.cancelAll).slot = s.slot := rfl
@[simp] theorem mark_cancelAll : (s.cancelAll).mark = s.mark := rfl
@[simp] theorem closed_cancelAll : (s.cancelAll).closed = s.closed := rfl
@[simp] theorem held_cancelAll : (s.cancelAll).held = s.held := rfl
@[simp] theorem tasks_cancelAll : (s.cancelAll).tasks = s.tasks := rfl
@[simp] theorem turns_cancelAll : (s.cancelAll).turns = s.turns := rfl

@[simp] theorem ring_setRing (ring : Ring) (woke : Bool) : (s.setRing ring woke).ring = ring := by
  unfold setRing; split <;> rfl

theorem feeds_setRing (ring : Ring) (woke : Bool) :
    (s.setRing ring woke).feeds = s.feeds.map fun f => if woke then f.wake else f := by
  unfold setRing; split <;> simp_all

theorem tasks_setRing (ring : Ring) (woke : Bool) :
    (s.setRing ring woke).tasks = s.tasks.map fun t => if woke then t.wake else t := by
  unfold setRing; split <;> simp_all

@[simp] theorem tasks_setTask (i : Nat) (task : Task) : (s.setTask i task).tasks = s.tasks.set i task := rfl
@[simp] theorem tasks_endTask (i : Nat) (task : Task) : (s.endTask i task).tasks = s.tasks.set i task := rfl
@[simp] theorem turns_endTask (i : Nat) (task : Task) : (s.endTask i task).turns = s.turns.erase i := rfl
@[simp] theorem feeds_setFeed (k : Nat) (feed : Feed σ) : (s.setFeed k feed).feeds = s.feeds.set k feed := rfl
@[simp] theorem feeds_dismiss (old : Nat) : (s.dismiss old).feeds = s.feeds.modify old Feed.cancel := rfl
@[simp] theorem slot_dismiss (old : Nat) : (s.dismiss old).slot = none := rfl
@[simp] theorem feeds_install (source : σ) (start : Nat) :
    (s.install source start).feeds = s.feeds ++ [Feed.fresh source start s.stream.scratch] := rfl
@[simp] theorem slot_install (source : σ) (start : Nat) : (s.install source start).slot = some s.feeds.length := rfl
@[simp] theorem attempts_countAttempt : s.countAttempt.attempts = s.attempts + 1 := rfl
@[simp] theorem feeds_cancelAll : s.cancelAll.feeds = s.feeds.map Feed.cancel := rfl

end Session
end ReadAhead
