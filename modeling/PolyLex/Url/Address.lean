import PolyLex.Url.Host
import PolyLex.Url.Segments

/-!
# Addresses

An address is a URL as far as it says where a request goes: scheme, authority and path. Queries and
fragments are dropped. Reading goes from the left: the scheme decides what counts as a slash,
whether there has to be a host and what a host looks like.

* `Address.parse` — the address that a text stands for, under some rules for domain names.
* `Address.text` — the text of an address.
* `Address.sibling` — the address in place of the last segment.
-/

namespace PolyLex.Url

/-! ### The parts -/

/-- Which rules a scheme follows. -/
inductive SchemeKind where
  /-- The schemes of the web, with the ports that go without saying. -/
  | web (port : Nat)
  | files
  | other
  deriving Repr, DecidableEq, Inhabited

/-- The rules of a scheme. -/
def schemeKind (scheme : String) : SchemeKind :=
  match scheme with
  | "http" | "ws" => .web 80
  | "https" | "wss" => .web 443
  | "ftp" => .web 21
  | "file" => .files
  | _ => .other

/-- Who is asked: a host, with a port unless it goes without saying. -/
structure Authority where
  /-- The encoded name, with the encoded password behind a colon. -/
  user : String := ""
  host : Host
  port : Option Nat := none
  deriving Repr, DecidableEq, Inhabited

/-- What is asked for. -/
inductive Path where
  | segments (names : List String)
  /-- A path without a hierarchy. -/
  | flat (text : String)
  deriving Repr, DecidableEq, Inhabited

/-- Where a request goes. -/
structure Address where
  scheme : String
  authority : Option Authority
  path : Path
  deriving Repr, DecidableEq, Inhabited

/-! ### Writing -/

namespace Authority

def text (a : Authority) : String :=
  (if a.user.isEmpty then "" else a.user ++ "@") ++ a.host.text ++
    (a.port.elim "" fun n => ":" ++ toString n)

end Authority

def segmentsText (names : List String) : String := String.join (names.map ("/" ++ ·))

namespace Address

/-- The text of an address. A path that starts with an empty segment is kept apart from an authority
that is not there. -/
def text (a : Address) : String :=
  a.scheme ++ ":" ++ match a.authority, a.path with
    | some authority, .segments names => "//" ++ authority.text ++ segmentsText names
    | some authority, .flat path => "//" ++ authority.text ++ path
    | none, .segments ("" :: name :: names) => "/." ++ segmentsText ("" :: name :: names)
    | none, .segments names => segmentsText names
    | none, .flat path => path

end Address

/-! ### Reading -/

/-- The text without white space at its ends and without line breaks and tabs. -/
def clean (cs : List Char) : List Char :=
  (Text.trimBy (· ≤ ' ') cs).filter fun c => !(c == '\t' || c == '\n' || c == '\r')

/-- The text before the query and the fragment. -/
def dropQuery (cs : List Char) : List Char := cs.takeWhile fun c => !(c == '?' || c == '#')

/-- May the character stand in a scheme? -/
def isSchemePart (c : Char) : Bool :=
  Text.isBasicLetter c || Text.isDigit c || c == '+' || c == '-' || c == '.'

/-- The scheme in small letters and what follows its colon. -/
def splitScheme? (cs : List Char) : Option (String × List Char) :=
  if cs.head?.any Text.isBasicLetter then
    match cs.dropWhile isSchemePart with
    | ':' :: rest =>
      some (String.ofList ((cs.takeWhile isSchemePart).map Text.lowerAscii), rest)
    | _ => none
  else none

/-- Is the character a slash in the eyes of the web? -/
def isWebSlash (c : Char) : Bool := c == '/' || c == '\\'

/-- What may not stand in the name of a user. -/
def reservedInUser : List Char :=
  reservedInPath ++ ['/', ':', ';', '=', '@', '[', '\\', ']', '^', '|']

/-- The name and the password of a user, as they are kept. An empty password goes without its
colon. -/
def userText (cs : List Char) : String :=
  let encode := fun cs => String.ofList (Percent.encode reservedInUser cs)
  let name := cs.takeWhile (· ≠ ':')
  let password := (cs.dropWhile (· ≠ ':')).drop 1
  encode name ++ if password.isEmpty then "" else ":" ++ encode password

/-- What stands before the last `@`, if there is one, and what follows it. -/
def splitUser (cs : List Char) : Option (List Char) × List Char :=
  if cs.contains '@' then
    let back := cs.reverse
    (some ((back.dropWhile (· ≠ '@')).drop 1).reverse, (back.takeWhile (· ≠ '@')).reverse)
  else (none, cs)

/-- The host and what follows it: a colon within brackets belongs to the host. -/
def splitHost (inBrackets : Bool) : List Char → List Char × List Char
  | [] => ([], [])
  | c :: cs =>
    if c = ':' ∧ !inBrackets then ([], c :: cs)
    else
      let inBrackets := if c = '[' then true else if c = ']' then false else inBrackets
      let (host, rest) := splitHost inBrackets cs
      (c :: host, rest)

def portLimit : Nat := 65535

/-- The number of a port, unless it goes without saying. -/
def readPort (usual : Option Nat) : List Char → Except Fault (Option Nat)
  | ':' :: digits =>
    if digits.all Text.isDigit then
      let n := digits.foldl (fun n c => 10 * n + (c.toNat - '0'.toNat)) 0
      if portLimit < n then .error .invalidPort
      else .ok (if digits.isEmpty || usual = some n then none else some n)
    else .error .invalidPort
  | _ => .ok none

/-- The segments of a path that starts with a slash, if it is not empty. -/
def readSegments (ofFiles : Bool) (isSlash : Char → Bool) (cs : List Char) : List String :=
  resolveSegments ofFiles [] (Text.splitBy isSlash cs)

section Names

variable [DomainNames]

/-- The authority that a text stands for. -/
def readAuthority (kind : SchemeKind) (cs : List Char) : Except Fault Authority := do
  let (user, rest) := splitUser cs
  let (host, port) := splitHost false rest
  let user := user.elim "" userText
  match kind with
  | .web usual =>
    if host.isEmpty then throw .emptyHost
    return { user, host := ← Host.ofText host, port := ← readPort (some usual) port }
  | _ =>
    -- There may be no authority, but no user or port without a host.
    if host.isEmpty && !(user.isEmpty && port.isEmpty) then throw .emptyHost
    return { user, host := ← Host.ofPlainText host, port := ← readPort none port }

/-- What follows a scheme of the web: any number of slashes, an authority, a path. -/
def readWeb (scheme : String) (port : Nat) (cs : List Char) : Except Fault Address := do
  let rest := cs.dropWhile isWebSlash
  let authority ← readAuthority (.web port) (rest.takeWhile (!isWebSlash ·))
  let path := (rest.dropWhile (!isWebSlash ·)).drop 1
  return { scheme, authority, path := .segments (readSegments false isWebSlash path) }

/-- The host of a file and the path behind it. -/
def readFileHost (cs : List Char) : Except Fault (Host × List Char) :=
  let host := cs.takeWhile (!isWebSlash ·)
  let path := (cs.dropWhile (!isWebSlash ·)).drop 1
  if isDrive host then .ok (.name "", cs)
  else if host.isEmpty then .ok (.name "", path)
  else match Host.ofText host with
    | .ok host => .ok (if host = .name "localhost" then .name "" else host, path)
    | .error fault => .error fault

/-- What follows the scheme of files: a host behind two slashes, a path. -/
def readFile (scheme : String) (cs : List Char) : Except Fault Address := do
  let (host, path) ← match cs with
    | a :: b :: rest =>
      if isWebSlash a && isWebSlash b then readFileHost rest
      else .ok (.name "", if isWebSlash a then b :: rest else cs)
    | [a] => .ok (.name "", if isWebSlash a then [] else cs)
    | [] => .ok (.name "", [])
  let names := dropEmpty (readSegments true isWebSlash path)
  -- A path that starts with a drive is local.
  let host := if (names.head?.map String.toList).any isDrive then .name "" else host
  return { scheme, authority := some { host }, path := .segments names }

/-- What follows any other scheme. -/
def readOther (scheme : String) (cs : List Char) : Except Fault Address := do
  match cs with
  | '/' :: '/' :: rest =>
    let authority ← readAuthority .other (rest.takeWhile (· ≠ '/'))
    let names := match rest.dropWhile (· ≠ '/') with
      | [] => []
      | _ :: path => readSegments false (· == '/') path
    return { scheme, authority := some authority, path := .segments names }
  | '/' :: path =>
    return { scheme, authority := none, path := .segments (readSegments false (· == '/') path) }
  | path =>
    return { scheme, authority := none, path := .flat (String.ofList (Percent.encode [] path)) }

def Address.parse (s : String) : Except Fault Address :=
  match splitScheme? (dropQuery (clean s.toList)) with
  | none => .error .relativeWithoutBase
  | some (scheme, rest) =>
    match schemeKind scheme with
    | .web port => readWeb scheme port rest
    | .files => readFile scheme rest
    | .other => readOther scheme rest

end Names

namespace Address

/-- The address with some segments in place of the last one. -/
def sibling (names : List String) (a : Address) : Except Fault Address :=
  match a.path with
  | .flat _ => .error .opaqueBase
  | .segments present =>
    -- What stands behind the last slash goes, unless it is a drive.
    let kept := (takeBack (schemeKind a.scheme == .files) present.reverse).reverse
    .ok { a with path := .segments (kept ++ names) }

end Address

end PolyLex.Url
