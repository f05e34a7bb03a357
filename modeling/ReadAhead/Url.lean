import ReadAhead.Url.Host

/-! URLs: the parts that a text is read into, and the normal text that they are written as. Schemes of the
    web are special: their hosts are domain names or addresses, their paths start with a slash, and a
    backslash counts as one. -/

namespace ReadAhead

/-- The parts of a URL, each in the form that it is written in. -/
structure Url where
  scheme : String
  user : String
  password : String
  host : Option Url.Host
  /-- The port, unless it is the usual one of the scheme. -/
  port : Option Nat
  path : String
  query : Option String
  fragment : Option String
  deriving DecidableEq, Repr

namespace Url

/-- The usual port of a special scheme. -/
def usualPort? (scheme : String) : Option Nat :=
  if scheme == "http" || scheme == "ws" then some 80
  else if scheme == "https" || scheme == "wss" then some 443
  else if scheme == "ftp" then some 21
  else none

def isSpecial (scheme : String) : Bool := scheme == "file" || (usualPort? scheme).isSome

def text (u : Url) : String :=
  let credentials :=
    if u.user.isEmpty && u.password.isEmpty then ""
    else u.user ++ (if u.password.isEmpty then "" else ":" ++ u.password) ++ "@"
  let authority := match u.host with
    | some host => "//" ++ credentials ++ host.text ++ (u.port.elim "" fun p => ":" ++ toString p)
    | none => ""
  u.scheme ++ ":" ++ authority ++ u.path ++ u.query.elim "" ("?" ++ ·) ++ u.fragment.elim "" ("#" ++ ·)

/-! ### Parts of the text -/

/-- The text without controls and blanks at its ends, and without tabs and line breaks. -/
def tidy (cs : List Char) : List Char :=
  let blank (c : Char) : Bool := c.toNat ≤ 0x20
  (((cs.dropWhile blank).reverse.dropWhile blank).reverse).filter fun c => !List.contains ['\t', '\n', '\r'] c

/-- The scheme before the first colon, in lower case, and what follows the colon. -/
def scheme? (cs : List Char) : Option (String × List Char) :=
  match upTo (fun c => !(c.isAlphanum || ['+', '-', '.'].contains c)) cs with
  | (c :: name, ':' :: rest) => if c.isAlpha then some (String.ofList (lower (c :: name)), rest) else none
  | _ => none

/-- Whether a character ends the part of a URL that names user, host and port. -/
def endsAuthority (special : Bool) (c : Char) : Bool := ['/', '?', '#'].contains c || (special && c == '\\')

/-- The user name and password before the last at-sign of the authority, and what follows that sign. -/
def credentials (special : Bool) (cs : List Char) : Except Error (List Char × List Char × List Char) :=
  let (authority, after) := upTo (endsAuthority special) cs
  if authority.contains '@' then
    let host := (authority.reverse.takeWhile (· != '@')).reverse
    let info := (authority.take (authority.length - host.length - 1))
    if info.isEmpty && host.isEmpty && !after.isEmpty then .error .emptyHost
    else
      let (user, password) := upTo (· == ':') info
      .ok (encode inUserSet user, encode inUserSet (password.drop 1), host ++ after)
  else .ok ([], [], cs)

/-- The text of the host, up to a colon outside brackets or the end of the authority. -/
def hostText (special : Bool) : (inside : Bool) → List Char → List Char × List Char
  | _, [] => ([], [])
  | inside, c :: cs =>
    if endsAuthority special c || (c == ':' && !inside) then ([], c :: cs)
    else
      let (host, rest) := hostText special (if c == '[' then true else if c == ']' then false else inside) cs
      (c :: host, rest)

/-- The port after a colon, which only digits may follow up to the path. -/
def portText (cs : List Char) : Except Error (Option Nat × List Char) :=
  match cs with
  | ':' :: rest =>
    let (digits, rest) := upTo (fun c => ['/', '\\', '?', '#'].contains c) rest
    match number? 10 digits with
    | some n =>
      if n < 65536 then .ok (if digits.isEmpty then none else some n, rest) else .error .port
    | none => .error .port
  | _ => .ok (none, cs)

/-! ### Paths -/

/-- Whether a segment of a path stands for the one it is in. -/
def isSingleDot (segment : List Char) : Bool := [".", "%2e"].contains (String.ofList (lower segment))

/-- Whether a segment of a path stands for the one above. -/
def isDoubleDot (segment : List Char) : Bool :=
  ["..", ".%2e", "%2e.", "%2e%2e"].contains (String.ofList (lower segment))

/-- Whether a text is a letter and a colon or bar, as drives are named. -/
def isDrive (cs : List Char) : Bool :=
  match cs with
  | [c, d] => c.isAlpha && (d == ':' || d == '|')
  | _ => false

/-- The segments above the last of those that are given, the last first. There is nothing above a drive. -/
def above : List (List Char) → List (List Char)
  | [] => []
  | segment :: rest => if isDrive segment then segment :: rest else rest

/-- The segments of a path with those of dots carried out; `done` holds those before, the last first. -/
def resolveDots (done : List (List Char)) : List (List Char) → List (List Char)
  | [] => done.reverse
  | segment :: rest =>
    if isDoubleDot segment then resolveDots (if rest.isEmpty then [] :: above done else above done) rest
    else if isSingleDot segment then resolveDots (if rest.isEmpty then [] :: done else done) rest
    else resolveDots (encode inPathSet segment :: done) rest

/-- A path in normal form, with the slash that it starts with if there is one. -/
def pathText (special : Bool) (cs : List Char) : List Char :=
  let isSlash (c : Char) : Bool := c == '/' || (special && c == '\\')
  match cs with
  | [] => if special then ['/'] else []
  | c :: rest =>
    let segments := pieces isSlash (if isSlash c then rest else cs)
    (resolveDots [] segments).flatMap ('/' :: ·)

/-! ### Reading -/

/-- The URL with the query and the fragment that `cs` holds. -/
def withTail (u : Url) (cs : List Char) : Url :=
  let (query, fragment) := upTo (· == '#') cs
  { u with
    query := match query with
      | '?' :: q => some (String.ofList (encode (inQuerySet (isSpecial u.scheme)) q))
      | _ => none
    fragment := match fragment with
      | '#' :: f => some (String.ofList (encode inFragmentSet f))
      | _ => none }

/-- The URL with the path, the query and the fragment that `cs` holds. -/
def withPath (u : Url) (cs : List Char) : Url :=
  let (path, tail) := upTo (fun c => c == '?' || c == '#') cs
  withTail { u with path := String.ofList (pathText (isSpecial u.scheme) path) } tail

/-- A URL of which only the scheme is known. -/
def ofScheme (scheme : String) : Url := ⟨scheme, "", "", none, none, "", none, none⟩

/-- Reads what follows the two slashes before an authority. -/
def readAuthority (scheme : String) (cs : List Char) : Except Error Url := do
  let special := isSpecial scheme
  let (user, password, cs) ← credentials special cs
  let (name, cs) := hostText special false cs
  let host ← if special then
      (if name.isEmpty then .error .emptyHost else specialHost name)
    else otherHost name
  if host.isEmpty && (cs.head? == some ':' || !user.isEmpty || !password.isEmpty) then .error .emptyHost
  else
    let (port, cs) ← portText cs
    let u := { ofScheme scheme with
      user := String.ofList user
      password := String.ofList password
      host := some host
      port := if port == usualPort? scheme then none else port }
    .ok (u.withPath cs)

/-- Reads what follows the colon of a URL of a file. -/
def readFile (cs : List Char) : Except Error Url := do
  let isSlash (c : Char) : Bool := c == '/' || c == '\\'
  let bare := { ofScheme "file" with host := some (.domain "") }
  match cs with
  | a :: b :: rest =>
    if isSlash a && isSlash b then
      let (name, after) := upTo (endsAuthority true) rest
      if isDrive name then .ok (bare.withPath rest)
      else if name.isEmpty then .ok (bare.withPath after)
      else
        let host ← specialHost name
        let host := if host == .domain "localhost" then .domain "" else host
        .ok ({ bare with host := some host }.withPath after)
    else .ok (bare.withPath cs)
  | _ => .ok (bare.withPath cs)

def parse (s : String) : Except Error Url :=
  match scheme? (tidy s.toList) with
  | none => .error .noScheme
  | some (scheme, cs) =>
    if scheme == "file" then readFile cs
    else if isSpecial scheme then readAuthority scheme (cs.dropWhile fun c => c == '/' || c == '\\')
    else match cs with
      | '/' :: '/' :: rest => readAuthority scheme rest
      | '/' :: _ => .ok ((ofScheme scheme).withPath cs)
      | _ =>
        let (path, tail) := upTo (fun c => c == '?' || c == '#') cs
        .ok (withTail { ofScheme scheme with path := String.ofList (encode isControl path) } tail)

end Url
end ReadAhead
