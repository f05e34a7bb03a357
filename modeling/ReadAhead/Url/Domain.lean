import ReadAhead.Url.Domain.Label

/-! Domain names. A name is read in its composed form, label by label, and written in ASCII. -/

namespace ReadAhead
namespace Url

/-- Whether a character can stand in no domain name. -/
def isForbidden (c : Char) : Bool :=
  isControl c || [' ', '#', '/', ':', '<', '>', '?', '@', '[', '\\', ']', '^', '|', '%'].contains c

def labels? (name : List Char) : Option (List Label) := do
  let cs ← canonical? name
  if cs.any isForbidden then none
  else
    let labels ← (pieces (· == '.') cs).mapM Label.of?
    if Label.canMeet labels then some labels else none

/-- The ASCII form of a domain name, given in bytes. -/
def domain? (bytes : List UInt8) : Option (List Char) := do
  let name ← String.fromUTF8? ⟨bytes.toArray⟩
  let labels ← labels? name.toList
  some (['.'].intercalate (labels.map Label.ascii))

end Url
end ReadAhead
