import ReadAhead.Url.Address
import ReadAhead.Url.Domain

/-! Hosts of URLs: domain names, addresses, and the hosts of schemes that have a kind of their own. -/

namespace ReadAhead
namespace Url

/-- The host that a URL names. -/
inductive Host
  | domain (name : String)
  | ipv4 (address : Nat)
  | ipv6 (pieces : List Nat)
  /-- A host of a scheme that is not special. -/
  | other (name : String)
  deriving DecidableEq, Repr

namespace Host

def text : Host → String
  | domain name | other name => name
  | ipv4 address => ipv4Text address
  | ipv6 pieces => "[" ++ ipv6Text pieces ++ "]"

def isEmpty : Host → Bool
  | domain name | other name => name.isEmpty
  | _ => false

end Host

/-! ### Hosts -/

/-- The address of eight pieces in brackets. -/
def bracketed (cs : List Char) : Except Error Host :=
  match cs.reverse with
  | ']' :: inner =>
    match ipv6? inner.reverse with
    | some pieces => .ok (.ipv6 pieces)
    | none => .error .ipv6
  | _ => .error .ipv6

/-- The host of a special scheme. -/
def specialHost (cs : List Char) : Except Error Host :=
  match cs with
  | '[' :: rest => bracketed rest
  | _ =>
    match domain? (decode cs) with
    | none => .error .domain
    | some [] => .error .emptyHost
    | some name =>
      if endsInNumber name then
        match ipv4? name with
        | some address => .ok (.ipv4 address)
        | none => .error .ipv4
      else .ok (.domain (String.ofList name))

/-- The host of a scheme that is not special. -/
def otherHost (cs : List Char) : Except Error Host :=
  match cs with
  | '[' :: rest => bracketed rest
  | _ =>
    if cs.any fun c => ['\x00', '\t', '\n', '\r', ' ', '#', '/', ':', '<', '>', '?', '@', '[', '\\', ']', '^',
        '|'].contains c then .error .hostCharacter
    else .ok (.other (String.ofList (encode isControl cs)))

end Url
end ReadAhead
