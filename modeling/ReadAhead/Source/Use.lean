import ReadAhead.Source

/-! What the owner of a source does with it, one thing after the other. A read is awaited to its end before
    anything else is done. -/

namespace ReadAhead

inductive Use
  /-- Asks for at most so many bytes, and waits for the answer. -/
  | read (limit : Nat)
  | cancel
  | close
  deriving DecidableEq, Repr

/-- How sources with states of type `σ` are used. -/
structure Handling (σ : Type) where
  read : σ → (limit : Nat) → Reply σ
  cancel : σ → σ
  close : σ → σ

namespace Handling
variable {σ : Type}

/-- The source after one use. -/
def step (h : Handling σ) (source : σ) : Use → σ
  | .read limit => (h.read source limit).next
  | .cancel => h.cancel source
  | .close => h.close source

/-- The source after use upon use. -/
def after (h : Handling σ) (uses : List Use) (source : σ) : σ := uses.foldl h.step source

/-- The bytes of an answer; a failure has none. -/
def bytesOf : Except Failure ByteArray → List UInt8
  | .ok bytes => bytes.data.toList
  | .error _ => []

/-- The bytes that one use gives. -/
def given (h : Handling σ) (source : σ) : Use → List UInt8
  | .read limit => bytesOf (h.read source limit).answer
  | .cancel | .close => []

/-- The bytes that use upon use gives, one behind the other. -/
def delivered (h : Handling σ) : List Use → σ → List UInt8
  | [], _ => []
  | use :: uses, source => h.given source use ++ h.delivered uses (h.step source use)

variable {h : Handling σ} {source : σ}

theorem after_append (h : Handling σ) (uses more : List Use) (source : σ) :
    h.after (uses ++ more) source = h.after more (h.after uses source) := List.foldl_append

/-- What holds of the source at first, and what each use keeps, holds after all of them. -/
theorem after_keeps {P : σ → Prop} (hsource : P source) {uses : List Use}
    (hstep : ∀ x use, use ∈ uses → P x → P (h.step x use)) : P (h.after uses source) := by
  induction uses generalizing source with
  | nil => exact hsource
  | cons use uses ih =>
    exact ih (hstep source use List.mem_cons_self hsource) fun x u hu => hstep x u (List.mem_cons_of_mem _ hu)

/-- What holds of the bytes given so far and of the source, and what each use keeps, holds after all of them. -/
theorem delivered_keeps {P : List UInt8 → σ → Prop} (hsource : P [] source)
    (hstep : ∀ out x use, P out x → P (out ++ h.given x use) (h.step x use)) (uses : List Use) :
    P (h.delivered uses source) (h.after uses source) := by
  have hkeeps : ∀ (uses : List Use) (out : List UInt8) (x : σ),
      P out x → P (out ++ h.delivered uses x) (h.after uses x) := by
    intro uses
    induction uses with
    | nil => exact fun out x hx => by rwa [delivered, List.append_nil]
    | cons use uses ih =>
      intro out x hx
      rw [delivered, ← List.append_assoc]
      exact ih _ _ (hstep out x use hx)
  exact hkeeps uses [] source hsource

end Handling
end ReadAhead
