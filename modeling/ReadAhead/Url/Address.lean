import ReadAhead.Url.Error
import ReadAhead.Url.Text

/-! Addresses in URLs, of four bytes or of eight pieces of sixteen bits: reading and writing them. -/

namespace ReadAhead
namespace Url

/-- The number that `digits` stand for in `base`, if all of them are digits of it. -/
def number? (base : Nat) (digits : List Char) : Option Nat :=
  digits.foldl (fun n? c => do
    let n ← n?
    let d ← Text.hexValue? c
    if d < base then some (n * base + d) else none) (some 0)

/-! ### Addresses of four bytes -/

/-- A part of an address of four bytes: decimal, octal after a zero, hexadecimal after `0x`. -/
def ipv4Part? (cs : List Char) : Option Nat :=
  match cs with
  | [] => none
  | '0' :: 'x' :: rest | '0' :: 'X' :: rest => number? 16 rest
  | '0' :: c :: rest => number? 8 (c :: rest)
  | _ => number? 10 cs

/-- Whether a host has to be read as an address of four bytes: its last part, one empty part at the end
    aside, is a number. -/
def endsInNumber (cs : List Char) : Bool :=
  match (pieces (· == '.') cs).reverse with
  | [] => false
  | [] :: [] => false
  | [] :: last :: _ => isNumber last
  | last :: _ => isNumber last
where
  /-- Whether a part consists of digits or is a part of an address. -/
  isNumber (last : List Char) : Bool :=
    (!last.isEmpty && last.all Char.isDigit) || (ipv4Part? last).isSome

/-- What one counts for that has `k` bytes behind it. -/
def weightOf : (k : Nat) → Nat
  | 0 => 1
  | k + 1 => 256 * weightOf k

/-- The address of four bytes that a host names. The last part takes the bytes that the others leave. -/
def ipv4? (cs : List Char) : Option Nat :=
  let parts := pieces (· == '.') cs
  let parts := if parts.getLast? == some [] then parts.dropLast else parts
  if parts.length > 4 then none
  else match (parts.mapM ipv4Part?).map List.reverse with
    | none | some [] => none
    | some (last :: rest) =>
      let weight := weightOf (4 - rest.length)
      if last < weight ∧ rest.all (· < 256) then some (rest.foldr (fun n sum => sum * 256 + n) 0 * weight + last)
      else none

/-- The four bytes in decimal. -/
def ipv4Text (n : Nat) : String :=
  ".".intercalate ([3, 2, 1, 0].map fun i => toString (n / weightOf i % 256))

/-! ### Addresses of eight pieces -/

/-- A decimal number up to 255 without a zero in front. -/
def decimalByte? (cs : List Char) : Option Nat :=
  match cs with
  | [] => none
  | '0' :: _ :: _ => none
  | _ => (number? 10 cs).filter (· < 256)

/-- The two pieces that an address of four bytes at the end stands for. -/
def ipv4Tail? (cs : List Char) : Option (List Nat) :=
  match (pieces (· == '.') cs).mapM decimalByte? with
  | some [a, b, c, d] => some [a * 256 + b, c * 256 + d]
  | _ => none

/-- A piece: one to four hexadecimal digits. -/
def piece? (cs : List Char) : Option Nat := if cs.isEmpty ∨ cs.length > 4 then none else number? 16 cs

/-- The pieces between colons; at the end there may be an address of four bytes. -/
def pieceList? (cs : List Char) (last : Bool) : Option (List Nat) :=
  if cs.isEmpty then some [] else go (pieces (· == ':') cs)
where
  /-- Reads the groups one after another. -/
  go : List (List Char) → Option (List Nat)
    | [] => some []
    | [g] => if last && g.contains '.' then ipv4Tail? g else (piece? g).map ([·])
    | g :: gs => do
      let p ← piece? g
      let ps ← go gs
      return p :: ps

/-- The text before the first pair of colons, and the text after it, if there is one. -/
def splitGap : List Char → List Char × Option (List Char)
  | ':' :: ':' :: cs => ([], some cs)
  | [] => ([], none)
  | c :: cs =>
    let (before, after) := splitGap cs
    (c :: before, after)

/-- The eight pieces that a text names. A pair of colons stands for one or more pieces of zero. -/
def ipv6? (cs : List Char) : Option (List Nat) :=
  match splitGap cs with
  | (_, none) => (pieceList? cs true).filter (·.length == 8)
  | (before, some after) => do
    let front ← pieceList? before false
    let back ← pieceList? after true
    let zeros := 8 - front.length - back.length
    if zeros = 0 then none else some (front ++ List.replicate zeros 0 ++ back)

/-- A number in hexadecimal, without zeros in front. -/
def hexText (n : Nat) : String := String.ofList (Nat.toDigits 16 n)

/-- Where the first longest run of two or more zeros starts, and how long it is. -/
def zeroRun (ps : List Nat) : Option (Nat × Nat) :=
  let runs := (List.range ps.length).map fun i => (i, ((ps.drop i).takeWhile (· == 0)).length)
  (runs.foldl (fun best r => if r.2 > best.2 then r else best) (0, 1)) |> fun best =>
    if best.2 > 1 then some best else none

/-- The pieces in hexadecimal, the first longest run of zeros left out. -/
def ipv6Text (ps : List Nat) : String :=
  let join (qs : List Nat) := ":".intercalate (qs.map hexText)
  match zeroRun ps with
  | none => join ps
  | some (i, n) => join (ps.take i) ++ "::" ++ join (ps.drop (i + n))

end Url
end ReadAhead
