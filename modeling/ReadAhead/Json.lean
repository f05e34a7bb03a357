import ReadAhead.Text.Hex

/-! Values of JSON, and the text that they are written as: compact, members in the order they come in. -/

namespace ReadAhead

/-- A value of JSON. Numbers are told apart only as far as the settings need it: those that digits alone
    write, and the rest. A text that holds half of a surrogate pair is no text of characters; it is kept as
    `none`. -/
inductive Json
  | null
  | bool (b : Bool)
  | natural (n : Nat)
  /-- A number with a sign, a fraction or an exponent. -/
  | otherNumber
  | text (s : Option String)
  | array (items : List Json)
  | object (members : List (Option String × Json))
  deriving Inhabited

namespace Json

/-- A lexical unit of JSON. -/
inductive Token
  | openArray
  | closeArray
  | openObject
  | closeObject
  | comma
  | colon
  | null
  | bool (b : Bool)
  | natural (n : Nat)
  | otherNumber
  | text (s : Option String)
  deriving DecidableEq, Repr

/-- A character of a text: quotes, backslashes and controls are escaped. -/
def escape (c : Char) : List Char :=
  match c with
  | '\x22' => ['\\', '\x22']
  | '\\' => ['\\', '\\']
  | '\x08' => ['\\', 'b']
  | '\x09' => ['\\', 't']
  | '\x0a' => ['\\', 'n']
  | '\x0c' => ['\\', 'f']
  | '\x0d' => ['\\', 'r']
  | c =>
    if c.toNat < 0x20 then ['\\', 'u', '0', '0', Text.hexDigit (c.toNat / 16), Text.hexDigit (c.toNat % 16)]
    else [c]

namespace Token

def write : Token → List Char
  | openArray => ['[']
  | closeArray => [']']
  | openObject => ['\x7b']
  | closeObject => ['\x7d']
  | comma => [',']
  | colon => [':']
  | null => ['n', 'u', 'l', 'l']
  | bool true => ['t', 'r', 'u', 'e']
  | bool false => ['f', 'a', 'l', 's', 'e']
  | natural n => Nat.toDigits 10 n
  | otherNumber => ['-', '0']
  | text (some s) => '\x22' :: s.toList.flatMap escape ++ ['\x22']
  | text none => ['\x22', '\\', 'u', 'd', '8', '0', '0', '\x22']

end Token

mutual

def tokens : Json → List Token
  | null => [.null]
  | bool b => [.bool b]
  | natural n => [.natural n]
  | otherNumber => [.otherNumber]
  | text s => [.text s]
  | array items => .openArray :: itemTokens items ++ [.closeArray]
  | object members => .openObject :: memberTokens members ++ [.closeObject]

def itemTokens : List Json → List Token
  | [] => []
  | [item] => item.tokens
  | item :: items => item.tokens ++ .comma :: itemTokens items

def memberTokens : List (Option String × Json) → List Token
  | [] => []
  | [(key, value)] => .text key :: .colon :: value.tokens
  | (key, value) :: members => .text key :: .colon :: value.tokens ++ .comma :: memberTokens members

end

def render (j : Json) : String := String.ofList (j.tokens.flatMap Token.write)

end Json
end ReadAhead
