import ReadAhead.Json.Lexer

/-! Reading a value of JSON from its tokens. The reader goes through the tokens once; what is open around
    the current place is kept on a stack. A text must hold one value and nothing else. -/

namespace ReadAhead
namespace Json

/-- An array or object that is open, with what it holds so far, the last first. -/
inductive Frame
  | items (done : List Json)
  | members (done : List (Option String × Json))
  /-- An object whose next member has its name. -/
  | named (key : Option String) (done : List (Option String × Json))

/-- What may come next. -/
inductive Place
  | value
  /-- A value, or the end of the array just opened. -/
  | firstItem
  | key
  /-- A name, or the end of the object just opened. -/
  | firstKey
  | colon
  /-- A comma, or the end of the array or object. -/
  | afterPart
  /-- The end of the text, the value being complete. -/
  | finished (value : Json)

/-- Where the reader is. -/
structure Reader where
  stack : List Frame
  place : Place

namespace Reader

def start : Reader := ⟨[], .value⟩

/-- A value has been read completely. -/
def complete (stack : List Frame) (value : Json) : Option Reader :=
  match stack with
  | [] => some ⟨[], .finished value⟩
  | .items done :: stack => some ⟨.items (value :: done) :: stack, .afterPart⟩
  | .named key done :: stack => some ⟨.members ((key, value) :: done) :: stack, .afterPart⟩
  | .members _ :: _ => none

/-- The end of an array or object. -/
def close (stack : List Frame) (token : Token) : Option Reader :=
  match stack, token with
  | .items done :: stack, .closeArray => complete stack (.array done.reverse)
  | .members done :: stack, .closeObject => complete stack (.object done.reverse)
  | _, _ => none

/-- The first token of a value. -/
def beginValue (stack : List Frame) (token : Token) : Option Reader :=
  match token with
  | .openArray => some ⟨.items [] :: stack, .firstItem⟩
  | .openObject => some ⟨.members [] :: stack, .firstKey⟩
  | .null => complete stack .null
  | .bool b => complete stack (.bool b)
  | .natural n => complete stack (.natural n)
  | .otherNumber => complete stack .otherNumber
  | .text s => complete stack (.text s)
  | _ => none

/-- The name of a member. -/
def beginMember (stack : List Frame) (token : Token) : Option Reader :=
  match stack, token with
  | .members done :: stack, .text key => some ⟨.named key done :: stack, .colon⟩
  | _, _ => none

/-- What comes after a comma. -/
def nextPart (stack : List Frame) : Option Reader :=
  match stack with
  | .items _ :: _ => some ⟨stack, .value⟩
  | .members _ :: _ => some ⟨stack, .key⟩
  | _ => none

def step (r : Reader) (token : Token) : Option Reader :=
  match r.place with
  | .value => beginValue r.stack token
  | .firstItem => (close r.stack token).or (beginValue r.stack token)
  | .key => beginMember r.stack token
  | .firstKey => (close r.stack token).or (beginMember r.stack token)
  | .colon => if token = .colon then some ⟨r.stack, .value⟩ else none
  | .afterPart => if token = .comma then nextPart r.stack else close r.stack token
  | .finished _ => none

def steps (r : Reader) (tokens : List Token) : Option Reader := tokens.foldlM step r

end Reader

/-- The value that tokens stand for. -/
def ofTokens? (tokens : List Token) : Option Json :=
  match Reader.start.steps tokens with
  | some ⟨[], .finished value⟩ => some value
  | _ => none

/-- The value that a text stands for. -/
def parse? (s : String) : Option Json := (lex s.toList).bind ofTokens?

end Json
end ReadAhead
