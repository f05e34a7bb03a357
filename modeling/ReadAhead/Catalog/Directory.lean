import ReadAhead.Catalog

/-! A directory: a resolver with a table of URLs, which can be told to fail and to have the catalog closed
    while it is asked. -/

namespace ReadAhead

/-- A table of the URLs of nodes. -/
structure Directory where
  urls : List (Nat × String)
  /-- How many times the directory was asked. -/
  calls : Nat
  /-- What the next call fails with, if it is to fail. -/
  fault : Option Failure
  /-- Whether the catalog is closed during the next call. -/
  closesCatalog : Bool
  deriving DecidableEq, Repr

namespace Directory

def empty : Directory := ⟨[], 0, none, false⟩

def setUrl (node : Nat) (url : String) (d : Directory) : Directory :=
  { d with urls := (node, url) :: d.urls.filter fun e => e.1 != node }

/-- What the directory knows of a node. -/
def find (d : Directory) (node : Nat) : Except Failure String :=
  match d.urls.lookup node with
  | some url => .ok url
  | none => .error (.unresolved (toString node) "unknown node")

/-- Asks the directory for the URL of a node. It answers at once. -/
def ask (d : Directory) (node : Nat) : Resolution Directory where
  url := match d.fault with
    | some failure => .error failure
    | none => d.find node
  delay := 0
  meanwhile := if d.closesCatalog then [.close] else []
  next := { d with calls := d.calls + 1, fault := none, closesCatalog := false }

/-- Sets what the next call fails with; with nothing, it answers from the table. -/
def failNext (fault : Option Failure) (d : Directory) : Directory := { d with fault }

/-- Lets the catalog be closed during the next call. -/
def closeDuringNext (d : Directory) : Directory := { d with closesCatalog := true }

end Directory
end ReadAhead
