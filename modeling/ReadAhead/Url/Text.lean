import ReadAhead.Text.Hex

/-! The text of URLs: characters, pieces between separators, and percent encoding. -/

namespace ReadAhead
namespace Url

/-- The pieces of a text between the characters that `sep` holds of; there is always one more of them. -/
def pieces (sep : Char → Bool) : List Char → List (List Char)
  | [] => [[]]
  | c :: cs =>
    match pieces sep cs with
    | [] => [[]]
    | p :: ps => if sep c then [] :: p :: ps else (c :: p) :: ps

/-- The text up to the first character that `sep` holds of, and the text from there on. -/
def upTo (sep : Char → Bool) (cs : List Char) : List Char × List Char :=
  (cs.takeWhile (!sep ·), cs.dropWhile (!sep ·))

/-- The ASCII letters in lower case. -/
def lower (cs : List Char) : List Char := cs.map Char.toLower

/-! ### Percent encoding -/

/-- Controls of ASCII. -/
def isControl (c : Char) : Bool := c.toNat < 0x20 || c.toNat == 0x7F

/-- What a fragment encodes beside what is not ASCII. -/
def inFragmentSet (c : Char) : Bool := isControl c || [' ', '\x22', '<', '>', '\x60'].contains c

/-- What a path encodes beside what is not ASCII. -/
def inPathSet (c : Char) : Bool := inFragmentSet c || ['#', '?', '\x7b', '\x7d'].contains c

/-- What a user name or password encodes beside what is not ASCII. -/
def inUserSet (c : Char) : Bool :=
  inPathSet c || ['/', ':', ';', '=', '@', '[', '\\', ']', '^', '|'].contains c

/-- What a query encodes beside what is not ASCII; that of a special scheme encodes the apostrophe too. -/
def inQuerySet (special : Bool) (c : Char) : Bool :=
  isControl c || [' ', '\x22', '#', '<', '>'].contains c || (special && c == '\x27')

/-- A byte as a percent sign and two digits in upper case. -/
def encodeByte (b : UInt8) : List Char :=
  ['%', (Text.hexDigit (b.toNat / 16)).toUpper, (Text.hexDigit (b.toNat % 16)).toUpper]

/-- A character as it is, or the bytes of its UTF-8 form encoded, if it is in `set` or not ASCII. -/
def encodeChar (set : Char → Bool) (c : Char) : List Char :=
  if set c || c.toNat ≥ 0x80 then (String.utf8EncodeChar c).flatMap encodeByte else [c]

/-- A text with the characters of `set` encoded, and all that are not ASCII. -/
def encode (set : Char → Bool) (cs : List Char) : List Char := cs.flatMap (encodeChar set)

/-- A text with each percent sign that two digits follow read as a byte. -/
def decode : List Char → List UInt8
  | [] => []
  | '%' :: a :: b :: cs =>
    match Text.hexValue? a, Text.hexValue? b with
    | some x, some y => UInt8.ofNat (x * 16 + y) :: decode cs
    | _, _ => '%'.toUInt8 :: decode (a :: b :: cs)
  | c :: cs => String.utf8EncodeChar c ++ decode cs
termination_by cs => cs.length

end Url
end ReadAhead
