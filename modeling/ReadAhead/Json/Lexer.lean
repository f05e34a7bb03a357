import ReadAhead.Json

/-! The tokens that a text of JSON consists of. Blanks between them count for nothing. -/

namespace ReadAhead
namespace Json

/-- Blanks between tokens. -/
def isBlank (c : Char) : Bool := c == ' ' || c == '\t' || c == '\n' || c == '\r'

/-- The number that four hexadecimal digits stand for. -/
def unit? (a b c d : Char) : Option Nat :=
  [a, b, c, d].foldlM (fun n digit => (Text.hexValue? digit).map fun d => n * 16 + d) 0

/-- The character that a backslash and this letter stand for. -/
def unescape? : Char → Option Char
  | '\x22' => some '\x22'
  | '\\' => some '\\'
  | '/' => some '/'
  | 'b' => some '\x08'
  | 'f' => some '\x0c'
  | 'n' => some '\n'
  | 'r' => some '\r'
  | 't' => some '\t'
  | _ => none

/-- The character for a number that is no half of a surrogate pair. -/
def whole? (n : Nat) : Option Char := if 0xD800 ≤ n ∧ n ≤ 0xDFFF then none else some (Char.ofNat n)

/-- The character for two halves of a surrogate pair. -/
def pair? (high low : Nat) : Option Char :=
  if (0xD800 ≤ high ∧ high ≤ 0xDBFF) ∧ 0xDC00 ≤ low ∧ low ≤ 0xDFFF then
    some (Char.ofNat (0x10000 + (high - 0xD800) * 0x400 + (low - 0xDC00)))
  else none

/-! ### Texts -/

/-- The number that an escape with four digits at the start of a text stands for, and what follows. -/
def readUnit : List Char → Option (Nat × List Char)
  | '\\' :: 'u' :: a :: b :: c :: d :: cs => (unit? a b c d).map fun n => (n, cs)
  | _ => none

/-- Reads an escape by number: a character, none if it is half of a surrogate pair that stands alone. -/
def readNumbered (cs : List Char) : Option (Option Char × List Char) :=
  match readUnit cs with
  | none => none
  | some (n, rest) =>
    match (readUnit rest).bind fun (low, rest) => (pair? n low).map fun c => (c, rest) with
    | some (c, rest) => some (some c, rest)
    | none => some (whole? n, rest)

/-- Reads one character of a text, escaped or as it is. -/
def readChar : List Char → Option (Option Char × List Char)
  | [] => none
  | '\\' :: 'u' :: cs => readNumbered ('\\' :: 'u' :: cs)
  | '\\' :: c :: cs => (unescape? c).map fun c => (some c, cs)
  | '\\' :: [] => none
  | c :: cs => if c.toNat < 0x20 then none else some (some c, cs)

theorem length_readUnit {cs rest : List Char} {n : Nat} (h : readUnit cs = some (n, rest)) :
    rest.length < cs.length := by
  unfold readUnit at h
  split at h
  · obtain ⟨_, _, h⟩ := Option.map_eq_some_iff.mp h
    obtain ⟨_, rfl⟩ := by simpa using h
    simp only [List.length_cons]
    omega
  · simp at h

theorem length_readNumbered {cs rest : List Char} {c : Option Char} (h : readNumbered cs = some (c, rest)) :
    rest.length < cs.length := by
  unfold readNumbered at h
  split at h
  · simp at h
  · rename_i n r hr
    have h1 := length_readUnit hr
    split at h
    · rename_i c' r' hp
      obtain ⟨_, rfl⟩ := by simpa using h
      obtain ⟨⟨low, r''⟩, hl, hm⟩ := Option.bind_eq_some_iff.mp hp
      obtain ⟨_, _, he⟩ := Option.map_eq_some_iff.mp hm
      obtain ⟨_, rfl⟩ := by simpa using he
      have h2 := length_readUnit hl
      omega
    · obtain ⟨_, rfl⟩ := by simpa using h
      exact h1

theorem length_readChar {cs rest : List Char} {c : Option Char} (h : readChar cs = some (c, rest)) :
    rest.length < cs.length := by
  unfold readChar at h
  split at h
  · simp at h
  · exact length_readNumbered h
  · obtain ⟨_, _, h⟩ := Option.map_eq_some_iff.mp h
    obtain ⟨_, rfl⟩ := by simpa using h
    simp only [List.length_cons]
    omega
  · simp at h
  · split at h
    · simp at h
    · obtain ⟨_, rfl⟩ := by simpa using h
      simp

/-- Reads a text behind its opening quote: its characters, none if one of them is none, and what follows
    the closing quote. -/
def readText (cs : List Char) : Option (Option (List Char) × List Char) :=
  if cs.head? = some '\x22' then some (some [], cs.tail)
  else match _h : readChar cs with
    | none => none
    | some (c, rest) => (readText rest).map fun (chars, rest) => (c.bind fun c => chars.map (c :: ·), rest)
termination_by cs.length
decreasing_by exact length_readChar _h

theorem length_readText {cs rest : List Char} {chars : Option (List Char)} (h : readText cs = some (chars, rest)) :
    rest.length ≤ cs.length := by
  induction cs using readText.induct generalizing chars rest with
  | case1 cs hq =>
    rw [readText, if_pos hq] at h
    obtain ⟨_, rfl⟩ := by simpa using h
    simp
  | case2 cs hq hn =>
    rw [readText, if_neg hq] at h
    split at h
    · simp at h
    · rename_i hs
      rw [hn] at hs
      cases hs
  | case3 cs hq c r hc ih =>
    rw [readText, if_neg hq] at h
    split at h
    · simp at h
    · rename_i c' r' hs
      rw [hc] at hs
      obtain ⟨rfl, rfl⟩ := by simpa using hs
      obtain ⟨⟨chars', rest'⟩, hr, he⟩ := Option.map_eq_some_iff.mp h
      obtain ⟨_, rfl⟩ := by simpa using he
      have h1 := ih hr
      have h2 := length_readChar hc
      omega

/-! ### Numbers -/

/-- The digits at the start of a text, if there are any, and what follows them. -/
def digits? (cs : List Char) : Option (List Char × List Char) :=
  let ds := cs.takeWhile Char.isDigit
  if ds = [] then none else some (ds, cs.dropWhile Char.isDigit)

/-- What follows a fraction, and whether there is one: a point and digits. -/
def afterFraction? (cs : List Char) : Option (Bool × List Char) :=
  match cs with
  | '.' :: cs => (digits? cs).map fun (_, rest) => (true, rest)
  | _ => some (false, cs)

/-- The text behind the sign of an exponent, if it has one. -/
def afterSign (cs : List Char) : List Char :=
  match cs with
  | '+' :: cs | '-' :: cs => cs
  | _ => cs

/-- What follows an exponent, and whether there is one: the letter, perhaps a sign, and digits. -/
def afterExponent? (cs : List Char) : Option (Bool × List Char) :=
  if cs.head? = some 'e' ∨ cs.head? = some 'E' then
    (digits? (afterSign cs.tail)).map fun (_, rest) => (true, rest)
  else some (false, cs)

/-- The number that decimal digits stand for. -/
def decimal (ds : List Char) : Nat := ds.foldl (fun n c => n * 10 + (c.toNat - '0'.toNat)) 0

/-- Reads a number behind its sign, if it is `signed`. Only zero starts with the digit zero. -/
def readNumber (signed : Bool) (cs : List Char) : Option (Token × List Char) := do
  let (whole, rest) ← digits? cs
  if whole.head? = some '0' ∧ whole ≠ ['0'] then none
  else do
    let (fraction, rest) ← afterFraction? rest
    let (exponent, rest) ← afterExponent? rest
    some (if signed || fraction || exponent then .otherNumber else .natural (decimal whole), rest)

theorem length_digits? {cs ds rest : List Char} (h : digits? cs = some (ds, rest)) : rest.length < cs.length := by
  have hsum := congrArg List.length (List.takeWhile_append_dropWhile (p := Char.isDigit) (l := cs))
  rw [List.length_append] at hsum
  unfold digits? at h
  simp only at h
  split at h
  · simp at h
  · rename_i hne
    obtain ⟨_, rfl⟩ := by simpa using h
    have := List.length_pos_iff.mpr hne
    omega

theorem length_afterFraction? {cs rest : List Char} {b : Bool} (h : afterFraction? cs = some (b, rest)) :
    rest.length ≤ cs.length := by
  unfold afterFraction? at h
  split at h
  · obtain ⟨⟨_, _⟩, hd, he⟩ := Option.map_eq_some_iff.mp h
    obtain ⟨_, rfl⟩ := by simpa using he
    have := length_digits? hd
    simp only [List.length_cons]
    omega
  · obtain ⟨_, rfl⟩ := by simpa using h
    exact Nat.le_refl _

theorem length_afterSign (cs : List Char) : (afterSign cs).length ≤ cs.length := by
  unfold afterSign
  split <;> simp

theorem length_afterExponent? {cs rest : List Char} {b : Bool} (h : afterExponent? cs = some (b, rest)) :
    rest.length ≤ cs.length := by
  unfold afterExponent? at h
  split at h
  · obtain ⟨⟨_, _⟩, hd, he⟩ := Option.map_eq_some_iff.mp h
    obtain ⟨_, rfl⟩ := by simpa using he
    have h1 := length_digits? hd
    have h2 := length_afterSign cs.tail
    have h3 := List.length_tail (l := cs)
    omega
  · obtain ⟨_, rfl⟩ := by simpa using h
    exact Nat.le_refl _

theorem length_readNumber {signed : Bool} {cs rest : List Char} {t : Token}
    (h : readNumber signed cs = some (t, rest)) : rest.length < cs.length := by
  simp only [readNumber, Option.bind_eq_bind, Option.bind_eq_some_iff] at h
  obtain ⟨⟨whole, r1⟩, h1, h⟩ := h
  split at h
  · simp at h
  · obtain ⟨⟨_, r2⟩, h2, h⟩ := Option.bind_eq_some_iff.mp h
    obtain ⟨⟨_, r3⟩, h3, h⟩ := Option.bind_eq_some_iff.mp h
    obtain ⟨_, rfl⟩ := by simpa using h
    have h1 := length_digits? h1
    have h2 := length_afterFraction? h2
    have h3 := length_afterExponent? h3
    simp only at h2 h3
    omega

/-! ### Tokens -/

/-- Reads the token at the start of a text without blanks before it. -/
def readToken : List Char → Option (Token × List Char)
  | '[' :: cs => some (.openArray, cs)
  | ']' :: cs => some (.closeArray, cs)
  | '\x7b' :: cs => some (.openObject, cs)
  | '\x7d' :: cs => some (.closeObject, cs)
  | ',' :: cs => some (.comma, cs)
  | ':' :: cs => some (.colon, cs)
  | 'n' :: 'u' :: 'l' :: 'l' :: cs => some (.null, cs)
  | 't' :: 'r' :: 'u' :: 'e' :: cs => some (.bool true, cs)
  | 'f' :: 'a' :: 'l' :: 's' :: 'e' :: cs => some (.bool false, cs)
  | '\x22' :: cs => (readText cs).map fun (chars, rest) => (.text (chars.map String.ofList), rest)
  | '-' :: cs => readNumber true cs
  | cs => readNumber false cs

theorem length_readToken {cs rest : List Char} {t : Token} (h : readToken cs = some (t, rest)) :
    rest.length < cs.length := by
  unfold readToken at h
  split at h
  case h_10 =>
    obtain ⟨⟨_, _⟩, hd, he⟩ := Option.map_eq_some_iff.mp h
    obtain ⟨_, rfl⟩ := by simpa using he
    have := length_readText hd
    simp only [List.length_cons]
    omega
  case h_11 =>
    have := length_readNumber h
    simp only [List.length_cons]
    omega
  case h_12 => exact length_readNumber h
  all_goals
    obtain ⟨_, rfl⟩ := by simpa using h
    simp only [List.length_cons]
    omega

def lex (cs : List Char) : Option (List Token) :=
  if cs.all isBlank then some []
  else match _h : readToken (cs.dropWhile isBlank) with
    | none => none
    | some (t, rest) => (lex rest).map (t :: ·)
termination_by cs.length
decreasing_by
  have h1 := length_readToken _h
  have h2 := (List.dropWhile_suffix (l := cs) isBlank).length_le
  omega

end Json
end ReadAhead
