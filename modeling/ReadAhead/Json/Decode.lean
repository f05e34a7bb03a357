import ReadAhead.Json.Reader

/-! Taking values of JSON apart. A record is an object that has each of its fields once, or an array of
    the fields in their order. -/

namespace ReadAhead
namespace Json

/-- A number below `bound`. -/
def natural? (bound : Nat) : Json → Option Nat
  | natural n => if n < bound then some n else none
  | _ => none

/-- A text of characters. -/
def text? : Json → Option String
  | text s => s
  | _ => none

def items? : Json → Option (List Json)
  | array items => some items
  | _ => none

/-- The items of an array of two. -/
def two? : Json → Option (Json × Json)
  | array [a, b] => some (a, b)
  | _ => none

/-- The value of a field that occurs once. -/
def field? (members : List (Option String × Json)) (name : String) : Option Json :=
  match members.filter (·.1 == some name) with
  | [(_, value)] => some value
  | _ => none

/-- The fields of a record, in the order of their names. In an object other fields count for nothing, but
    if `exact` there may be none. -/
def fields? (names : List String) (exact : Bool) : Json → Option (List Json)
  | array items => if items.length = names.length then some items else none
  | object members =>
    if members.all (fun m => m.1.isSome && (!exact || m.1.any names.contains)) then names.mapM (field? members)
    else none
  | _ => none

end Json
end ReadAhead
