import ReadAhead.Json.Reader
import ReadAhead.Proofs.Json.Lexer

/-! A value is read back from the text that it is written as (`parse?_render`). Wherever a value may stand,
    the reader goes through its tokens and is then as far as if the value had been handed to it as a whole
    (`steps_tokens`), whatever is open around it. -/

namespace ReadAhead
namespace Json
namespace Reader
variable {stack : List Frame} {t : Token} {ts : List Token}

@[simp] theorem steps_nil (r : Reader) : r.steps [] = some r := rfl

@[simp] theorem steps_cons (r : Reader) (t : Token) (ts : List Token) :
    r.steps (t :: ts) = (r.step t).bind (·.steps ts) := List.foldlM_cons

/-- The first token of a value. -/
def Begins (t : Token) : Prop := t ≠ .closeArray ∧ t ≠ .closeObject

theorem exists_tokens_eq (j : Json) : ∃ t ts, j.tokens = t :: ts ∧ Begins t := by
  cases j <;> exact ⟨_, _, rfl, nofun, nofun⟩

theorem close_eq_none (h : Begins t) (stack : List Frame) : close stack t = none := by
  unfold close
  split
  · exact absurd rfl h.1
  · exact absurd rfl h.2
  · rfl

/-- At the beginning of an array that has items the reader is as at any value. -/
theorem steps_firstItem (item : Json) (ts : List Token) :
    steps ⟨stack, .firstItem⟩ (item.tokens ++ ts) = steps ⟨stack, .value⟩ (item.tokens ++ ts) := by
  obtain ⟨t, rest, htokens, ht⟩ := exists_tokens_eq item
  rw [htokens, List.cons_append, steps_cons, steps_cons]
  simp only [step, close_eq_none ht, Option.none_or]

theorem steps_firstKey (key : Option String) (ts : List Token) :
    steps ⟨stack, .firstKey⟩ (.text key :: ts) = steps ⟨stack, .key⟩ (.text key :: ts) := by
  rw [steps_cons, steps_cons]
  simp only [step, close_eq_none (t := .text key) ⟨nofun, nofun⟩, Option.none_or]

mutual

/-- Reading the tokens of a value completes the value. -/
theorem steps_tokens (stack : List Frame) (ts : List Token) :
    (j : Json) → steps ⟨stack, .value⟩ (j.tokens ++ ts) = (complete stack j).bind (·.steps ts)
  | .null => steps_cons _ _ _
  | .bool _ => steps_cons _ _ _
  | .natural _ => steps_cons _ _ _
  | .otherNumber => steps_cons _ _ _
  | .text _ => steps_cons _ _ _
  | .array [] => by simp [tokens, itemTokens, step, beginValue, close]
  | .array (item :: items) => by
    have hitems := steps_itemTokens stack [] ts (item :: items) nofun
    have hfirst : ∃ rest, itemTokens (item :: items) = item.tokens ++ rest := by
      cases items with
      | nil => exact ⟨[], (List.append_nil _).symm⟩
      | cons next items => exact ⟨_, rfl⟩
    obtain ⟨rest, hrest⟩ := hfirst
    rw [tokens, List.append_assoc, List.cons_append, steps_cons]
    show steps ⟨.items [] :: stack, .firstItem⟩ _ = _
    rw [hrest, List.append_assoc, steps_firstItem, ← List.append_assoc, ← hrest]
    exact hitems
  | .object [] => by simp [tokens, memberTokens, step, beginValue, close, beginMember]
  | .object ((key, value) :: members) => by
    have hmembers := steps_memberTokens stack [] ts ((key, value) :: members) nofun
    have hfirst : ∃ rest, memberTokens ((key, value) :: members) = .text key :: rest := by
      cases members <;> exact ⟨_, rfl⟩
    obtain ⟨rest, hrest⟩ := hfirst
    rw [tokens, List.append_assoc, List.cons_append, steps_cons]
    show steps ⟨.members [] :: stack, .firstKey⟩ _ = _
    rw [hrest, List.cons_append, steps_firstKey, ← List.cons_append, ← hrest]
    exact hmembers

theorem steps_itemTokens (stack : List Frame) (done : List Json) (ts : List Token) :
    (items : List Json) → items ≠ [] →
      steps ⟨.items done :: stack, .value⟩ (itemTokens items ++ .closeArray :: ts) =
        (complete stack (.array (done.reverse ++ items))).bind (·.steps ts)
  | [], h => absurd rfl h
  | [item], _ => by
    rw [itemTokens, steps_tokens]
    simp [complete, step, close]
  | item :: next :: items, _ => by
    have hrest := steps_itemTokens stack (item :: done) ts (next :: items) nofun
    show steps _ (item.tokens ++ .comma :: itemTokens (next :: items) ++ _) = _
    rw [List.append_assoc, steps_tokens]
    simpa [complete, step, nextPart] using hrest

theorem steps_memberTokens (stack : List Frame) (done : List (Option String × Json)) (ts : List Token) :
    (members : List (Option String × Json)) → members ≠ [] →
      steps ⟨.members done :: stack, .key⟩ (memberTokens members ++ .closeObject :: ts) =
        (complete stack (.object (done.reverse ++ members))).bind (·.steps ts)
  | [], h => absurd rfl h
  | [(key, value)], _ => by
    show steps ⟨.named key done :: stack, .value⟩ (value.tokens ++ .closeObject :: ts) = _
    rw [steps_tokens]
    simp [complete, step, close]
  | (key, value) :: next :: members, _ => by
    have hrest := steps_memberTokens stack ((key, value) :: done) ts (next :: members) nofun
    show steps ⟨.named key done :: stack, .value⟩ (value.tokens ++ .comma :: memberTokens (next :: members) ++ _) = _
    rw [List.append_assoc, steps_tokens]
    simpa [complete, step, nextPart] using hrest

end

end Reader

theorem ofTokens?_tokens (j : Json) : ofTokens? j.tokens = some j := by
  have hsteps := Reader.steps_tokens [] [] j
  rw [List.append_nil] at hsteps
  rw [ofTokens?, Reader.start, hsteps]
  rfl

/-- A value is read back from its text. -/
theorem parse?_render (j : Json) : parse? j.render = some j := by
  rw [parse?, render, String.toList_ofList, lex_tokens, Option.bind_some, ofTokens?_tokens]

end Json
end ReadAhead
