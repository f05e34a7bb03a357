import ReadAhead.Text.Direction
import ReadAhead.Text.Joining
import ReadAhead.Url.Domain.Mapping
import ReadAhead.Url.Punycode

/-! The labels of a domain name: what a label may hold, how it is written in ASCII, and which labels can stand
    in one name where text of both directions meets. -/

namespace ReadAhead
namespace Url

/-- A label of a domain name. -/
structure Label where
  /-- The characters that show. -/
  shown : List Char
  /-- The form in ASCII. -/
  ascii : List Char
  deriving DecidableEq, Repr

namespace Label

/-- The most characters of a label that is not ASCII. -/
def longestShown : Nat := 1000

/-- The most characters of an encoded label behind its mark. -/
def longestEncoded : Nat := 2000

def isAscii (cs : List Char) : Bool := cs.all (·.toNat < 0x80)

/-! ### Joiners

Two characters without a shape ask for letters to be joined, or not to be. They can stand behind a mark that
takes a consonant's vowel away; the one that parts letters can stand between letters that would join as well. -/

/-- Whether the first character that is not transparent joins. -/
def meets (joins : Char → Bool) (cs : List Char) : Bool := (cs.dropWhile Text.isTransparent).head?.any joins

/-- Whether the text, given backwards, ends with a mark that takes a consonant's vowel away. -/
def isSilenced (before : List Char) : Bool := before.head?.any fun c => Text.combiningClass c == 9

/-- Whether every joiner of a text stands in a place of its own; what stands before the text is given
    backwards. -/
def joinersFit (before : List Char) : List Char → Bool
  | [] => true
  | c :: cs =>
    (if c.toNat = 0x200C then
      isSilenced before || (meets Text.joinsNext before && meets Text.joinsPrevious cs)
    else if c.toNat = 0x200D then isSilenced before
    else true) && joinersFit (c :: before) cs

/-- Whether characters can be shown as a label: they are not too many, the first is no mark, and joiners are
    in their places. -/
def isShowable (cs : List Char) : Bool :=
  cs.length ≤ longestShown && !cs.head?.any Text.isMark && joinersFit [] cs

/-! ### The form in ASCII -/

/-- What marks an encoded label. -/
def encodedMark : List Char := ['x', 'n', '-', '-']

/-- The label that an encoded form behind the mark stands for. It has to be in composed form, and it cannot be
    ASCII, so the form does not end with a hyphen. -/
def ofEncoded? (form : List Char) : Option Label := do
  if form.length ≤ longestEncoded ∧ isAscii form ∧ form.getLast?.any (· != '-') then
    let shown ← Punycode.decode form
    if canonical? shown = some shown ∧ isShowable shown then some ⟨shown, encodedMark ++ form⟩ else none
  else none

/-- The label of characters in composed form. -/
def of? (cs : List Char) : Option Label :=
  match cs with
  | 'x' :: 'n' :: '-' :: '-' :: form => ofEncoded? form
  | _ =>
    if isAscii cs then some ⟨cs, cs⟩
    else if isShowable cs then some ⟨cs, encodedMark ++ Punycode.encode cs⟩
    else none

/-! ### Directions -/

/-- Whether a label has text from right to left. -/
def runsLeft (label : Label) : Bool :=
  label.shown.any fun c => Text.Direction.of c == .right || Text.Direction.of c == .arabicFigure

/-- Whether a label keeps its place among labels of the other direction. It begins with a letter; it holds no
    letter of the other direction; and up to marks on it, it ends with a letter or a figure. From left to right
    there are no figures of Arabic, and from right to left figures are of one kind. -/
def keepsDirection (label : Label) : Bool :=
  match label.shown.map Text.Direction.of with
  | [] => true
  | first :: rest =>
    let rest := rest.reverse.dropWhile (· == .mark)
    match first with
    | .left =>
      rest.head?.all (fun d => d == .left || d == .figure) && rest.all fun d => d != .right && d != .arabicFigure
    | .right =>
      rest.head?.all (fun d => d == .right || d == .figure || d == .arabicFigure) && rest.all (· != .left) &&
        !(rest.contains .figure && rest.contains .arabicFigure)
    | _ => false

/-- Whether labels can stand in one name. -/
def canMeet (labels : List Label) : Bool := !labels.any runsLeft || labels.all keepsDirection

end Label

end Url
end ReadAhead
