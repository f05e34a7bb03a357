import ReadAhead.Json.Lexer

/-! Written tokens are read back. A token is read from what it is written as, whatever follows it, but for
    numbers: their digits would go on with those that follow. In the text of a value a number is followed by
    punctuation or by nothing, so the lexer finds the tokens that were written (`lex_tokens`). -/

namespace ReadAhead
namespace Json
variable {c : Char} {cs ds rest : List Char} {n : Nat}

/-! ### Texts -/

theorem unit?_control (h : n < 0x20) :
    unit? '0' '0' (Text.hexDigit (n / 16)) (Text.hexDigit (n % 16)) = some n := by
  have hall : ∀ n < 0x20, unit? '0' '0' (Text.hexDigit (n / 16)) (Text.hexDigit (n % 16)) = some n := by decide
  exact hall n h

/-- A control that is escaped by its number is read back: it is no half of a surrogate pair. -/
theorem readNumbered_control (h : c.toNat < 0x20) :
    readNumbered ('\\' :: 'u' :: '0' :: '0' :: Text.hexDigit (c.toNat / 16) :: Text.hexDigit (c.toNat % 16) :: rest) =
      some (some c, rest) := by
  have hunit : readUnit ('\\' :: 'u' :: '0' :: '0' :: Text.hexDigit (c.toNat / 16) :: Text.hexDigit (c.toNat % 16) ::
      rest) = some (c.toNat, rest) := by
    rw [readUnit, unit?_control h]
    rfl
  have hpair : ∀ low, pair? c.toNat low = none := fun low => if_neg (by omega)
  have hwhole : whole? c.toNat = some c := by rw [whole?, if_neg (by omega), Char.ofNat_toNat]
  simp [readNumbered, hunit, hpair, hwhole]

/-- A character is read back from what it is written as in a text. -/
theorem readChar_escape (c : Char) (rest : List Char) : readChar (escape c ++ rest) = some (some c, rest) := by
  unfold escape
  split
  case h_8 hquote hbackslash _ _ _ _ _ =>
    split
    · rename_i hcontrol
      exact readNumbered_control hcontrol
    · rename_i hcontrol
      unfold readChar
      split <;> simp_all
  all_goals rfl

theorem head?_escape (c : Char) (rest : List Char) : (escape c ++ rest).head? ≠ some '\x22' := by
  unfold escape
  split
  case h_8 hquote _ _ _ _ _ _ =>
    split
    · simp
    · simpa using hquote
  all_goals simp

theorem readText_of_readChar {c : Option Char} (hhead : cs.head? ≠ some '\x22') (h : readChar cs = some (c, rest)) :
    readText cs = (readText rest).map fun (chars, rest) => (c.bind fun c => chars.map (c :: ·), rest) := by
  rw [readText, if_neg hhead]
  split
  · rename_i hnone
    rw [h] at hnone
    cases hnone
  · rename_i found left hsome
    rw [h] at hsome
    cases hsome
    rfl

theorem readText_escape (chars rest : List Char) :
    readText (chars.flatMap escape ++ '\x22' :: rest) = some (some chars, rest) := by
  induction chars with
  | nil =>
    rw [readText]
    rfl
  | cons c chars ih =>
    rw [List.flatMap_cons, List.append_assoc, readText_of_readChar (head?_escape c _) (readChar_escape c _), ih]
    rfl

/-! ### Numbers -/

/-- A number that ends here does not go on in what follows. -/
def EndsNumber (rest : List Char) : Prop := ∀ c ∈ rest.head?, c.isDigit = false ∧ c ≠ '.' ∧ c ≠ 'e' ∧ c ≠ 'E'

theorem EndsNumber.digits? (h : EndsNumber rest) (hds : ∀ d ∈ ds, d.isDigit = true) (hne : ds ≠ []) :
    digits? (ds ++ rest) = some (ds, rest) := by
  have htake : rest.takeWhile Char.isDigit = [] := by
    cases rest with
    | nil => rfl
    | cons c rest => rw [List.takeWhile_cons_of_neg (by simp [(h c rfl).1])]
  have hdrop : rest.dropWhile Char.isDigit = rest := by
    cases rest with
    | nil => rfl
    | cons c rest => rw [List.dropWhile_cons_of_neg (by simp [(h c rfl).1])]
  rw [Json.digits?, List.takeWhile_append_of_pos hds, List.dropWhile_append_of_pos hds, htake, hdrop, List.append_nil]
  exact if_neg hne

theorem EndsNumber.afterFraction? (h : EndsNumber rest) : afterFraction? rest = some (false, rest) := by
  unfold Json.afterFraction?
  split
  · exact absurd rfl (h '.' rfl).2.1
  · rfl

theorem EndsNumber.afterExponent? (h : EndsNumber rest) : afterExponent? rest = some (false, rest) := by
  refine if_neg ?_
  rintro (he | he)
  · exact (h 'e' he).2.2.1 rfl
  · exact (h 'E' he).2.2.2 rfl

theorem EndsNumber.readNumber (h : EndsNumber rest) (signed : Bool) (hds : ∀ d ∈ ds, d.isDigit = true) (hne : ds ≠ [])
    (hzero : ds.head? = some '0' → ds = ['0']) :
    readNumber signed (ds ++ rest) = some (if signed then .otherNumber else .natural (decimal ds), rest) := by
  have hplain : ¬(ds.head? = some '0' ∧ ds ≠ ['0']) := fun ⟨hhead, hlong⟩ => hlong (hzero hhead)
  simp [Json.readNumber, h.digits? hds hne, hplain, h.afterFraction?, h.afterExponent?]

theorem decimal_toDigits (n : Nat) : decimal (Nat.toDigits 10 n) = n := by
  have hcomm : (fun (n : Nat) (c : Char) => n * 10 + (c.toNat - '0'.toNat)) = fun n c => 10 * n + (c.toNat - '0'.toNat) := by
    funext n c
    rw [Nat.mul_comm]
  rw [decimal, hcomm]
  exact Nat.ofDigitChars_toDigits (by decide) (by decide)

/-- Only zero is written with the digit zero in front. -/
theorem toDigits_of_head? (h : (Nat.toDigits 10 n).head? = some '0') : Nat.toDigits 10 n = ['0'] := by
  induction n using Nat.strongRecOn with
  | _ n ih =>
    by_cases hn : n < 10
    · have hall : ∀ n < 10, (Nat.toDigits 10 n).head? = some '0' → Nat.toDigits 10 n = ['0'] := by decide
      exact hall n hn h
    · rw [Nat.toDigits_of_base_le (by decide) (by omega), List.head?_append,
        List.head?_eq_some_head Nat.toDigits_ne_nil, Option.some_or, ← List.head?_eq_some_head] at h
      have htens := congrArg decimal (ih (n / 10) (by omega) h)
      rw [decimal_toDigits] at htens
      have hzero : decimal ['0'] = 0 := rfl
      omega

/-! ### Tokens -/

namespace Token

def isNumber : Token → Bool
  | natural _ | otherNumber => true
  | _ => false

/-- Brackets, commas and colons. -/
def isMark : Token → Bool
  | openArray | closeArray | openObject | closeObject | comma | colon => true
  | _ => false

end Token

theorem readToken_of_digit (h : c.isDigit = true) : readToken (c :: cs) = readNumber false (c :: cs) := by
  unfold readToken
  split <;> simp_all

/-- A token is read back from what it is written as, if what follows does not go on with it. -/
theorem readToken_write (t : Token) (h : t.isNumber = true → EndsNumber rest) : readToken (t.write ++ rest) = some (t, rest) := by
  cases t with
  | natural n =>
    have hdigits : ∀ d ∈ Nat.toDigits 10 n, d.isDigit = true := fun d hd =>
      Nat.isDigit_of_mem_toDigits (by decide) (by decide) hd
    have hread := (h rfl).readNumber false hdigits Nat.toDigits_ne_nil toDigits_of_head?
    rw [decimal_toDigits] at hread
    rw [Token.write]
    cases hds : Nat.toDigits 10 n with
    | nil => exact absurd hds Nat.toDigits_ne_nil
    | cons d ds =>
      rw [hds] at hread
      rw [List.cons_append, readToken_of_digit (hdigits d (by rw [hds]; exact List.mem_cons_self)), ← List.cons_append]
      exact hread
  | otherNumber =>
    have hdigit : ∀ d ∈ ['0'], d.isDigit = true := List.forall_mem_singleton.mpr rfl
    exact (h rfl).readNumber true hdigit (List.cons_ne_nil _ _) fun _ => rfl
  | text s =>
    cases s with
    | none =>
      have hhalf : readChar ('\\' :: 'u' :: 'd' :: '8' :: '0' :: '0' :: '\x22' :: rest) = some (none, '\x22' :: rest) := rfl
      have hend : readText ('\x22' :: rest) = some (some [], rest) := readText_escape [] rest
      show (readText ('\\' :: 'u' :: 'd' :: '8' :: '0' :: '0' :: '\x22' :: rest)).map _ = _
      rw [readText_of_readChar (by simp) hhalf, hend]
      rfl
    | some s =>
      show (readText ((s.toList.flatMap escape ++ ['\x22']) ++ rest)).map _ = _
      rw [List.append_assoc, List.singleton_append, readText_escape]
      simp
  | bool b => cases b <;> rfl
  | _ => rfl

theorem lex_of_readToken {t : Token} (hblank : ∀ c ∈ cs.head?, isBlank c = false) (h : readToken cs = some (t, rest)) :
    lex cs = (lex rest).map (t :: ·) := by
  cases cs with
  | nil => cases h
  | cons c cs =>
    have hc : isBlank c = false := hblank c rfl
    have hdrop : (c :: cs).dropWhile isBlank = c :: cs := List.dropWhile_cons_of_neg (by simp [hc])
    rw [lex, if_neg (by simp [hc])]
    split
    · rename_i hnone
      rw [hdrop, h] at hnone
      cases hnone
    · rename_i found left hsome
      rw [hdrop, h] at hsome
      cases hsome
      rfl

theorem isBlank_of_isDigit (h : c.isDigit = true) : isBlank c = false := by
  cases hblank : isBlank c with
  | false => rfl
  | true =>
    simp only [isBlank, Bool.or_eq_true, beq_iff_eq] at hblank
    rcases hblank with ((rfl | rfl) | rfl) | rfl <;> cases h

theorem isBlank_head_write (t : Token) (rest : List Char) : ∀ c ∈ (t.write ++ rest).head?, isBlank c = false := by
  cases t with
  | natural n =>
    intro c hc
    rw [Token.write, List.head?_append, List.head?_eq_some_head Nat.toDigits_ne_nil, Option.some_or] at hc
    obtain rfl := Option.some.inj hc
    exact isBlank_of_isDigit (Nat.isDigit_of_mem_toDigits (by decide) (by decide) (List.head_mem Nat.toDigits_ne_nil))
  | bool b => cases b <;> simp [Token.write, isBlank]
  | text s => cases s <;> simp [Token.write, isBlank]
  | _ => simp [Token.write, isBlank]

/-! ### Values -/

/-- The lexer finds the tokens in what they are written as. -/
def Legible (ts : List Token) : Prop := lex (ts.flatMap Token.write) = some ts

def StartsWithMark (ts : List Token) : Prop := ∀ t ∈ ts.head?, t.isMark = true

theorem startsWithMark_cons {t : Token} {ts : List Token} (h : t.isMark = true) : StartsWithMark (t :: ts) := by
  intro first hfirst
  obtain rfl := Option.some.inj hfirst
  exact h

theorem StartsWithMark.endsNumber {ts : List Token} (h : StartsWithMark ts) : EndsNumber (ts.flatMap Token.write) := by
  cases ts with
  | nil => exact nofun
  | cons t ts =>
    have ht : t.isMark = true := h t rfl
    cases t with
    | openArray | closeArray | openObject | closeObject | comma | colon => simp [EndsNumber, Token.write]
    | _ => cases ht

theorem Legible.cons {t : Token} {ts : List Token} (h : Legible ts) (hnumber : t.isNumber = true → StartsWithMark ts) :
    Legible (t :: ts) := by
  have hread := readToken_write t fun ht => (hnumber ht).endsNumber
  rw [Legible, List.flatMap_cons, lex_of_readToken (isBlank_head_write t _) hread, h]
  rfl

mutual

/-- What follows a value in a text is a mark, if anything does. -/
theorem Legible.tokens {ts : List Token} (h : Legible ts) (hts : StartsWithMark ts) :
    (j : Json) → Legible (j.tokens ++ ts)
  | .null => h.cons (t := .null) nofun
  | .bool b => h.cons (t := .bool b) nofun
  | .natural n => h.cons (t := .natural n) fun _ => hts
  | .otherNumber => h.cons (t := .otherNumber) fun _ => hts
  | .text s => h.cons (t := .text s) nofun
  | .array items => by
    have hitems := (h.cons (t := .closeArray) nofun).itemTokens (startsWithMark_cons rfl) items
    rw [Json.tokens, List.append_assoc]
    exact hitems.cons (t := .openArray) nofun
  | .object members => by
    have hmembers := (h.cons (t := .closeObject) nofun).memberTokens (startsWithMark_cons rfl) members
    rw [Json.tokens, List.append_assoc]
    exact hmembers.cons (t := .openObject) nofun

theorem Legible.itemTokens {ts : List Token} (h : Legible ts) (hts : StartsWithMark ts) :
    (items : List Json) → Legible (itemTokens items ++ ts)
  | [] => h
  | [item] => h.tokens hts item
  | item :: next :: items => by
    have hrest := (h.itemTokens hts (next :: items)).cons (t := .comma) nofun
    show Legible (item.tokens ++ .comma :: Json.itemTokens (next :: items) ++ ts)
    rw [List.append_assoc]
    exact hrest.tokens (startsWithMark_cons rfl) item

theorem Legible.memberTokens {ts : List Token} (h : Legible ts) (hts : StartsWithMark ts) :
    (members : List (Option String × Json)) → Legible (memberTokens members ++ ts)
  | [] => h
  | [(key, value)] => ((h.tokens hts value).cons (t := .colon) nofun).cons (t := .text key) nofun
  | (key, value) :: next :: members => by
    have hrest := (h.memberTokens hts (next :: members)).cons (t := .comma) nofun
    have hvalue := hrest.tokens (startsWithMark_cons rfl) value
    show Legible (.text key :: .colon :: (value.tokens ++ .comma :: Json.memberTokens (next :: members)) ++ ts)
    rw [List.cons_append, List.cons_append, List.append_assoc]
    exact (hvalue.cons (t := .colon) nofun).cons (t := .text key) nofun

end

/-- The text of a value consists of the tokens of the value. -/
theorem lex_tokens (j : Json) : lex (j.tokens.flatMap Token.write) = some j.tokens := by
  have hnil : Legible [] := by
    rw [Legible, List.flatMap_nil, lex]
    rfl
  have hall := hnil.tokens nofun j
  rwa [List.append_nil] at hall

end Json
end ReadAhead
