import FunctionMeter.Json.Decode
import FunctionMeter.Uri.Address
import FunctionMeter.Uri.Percent
import FunctionMeter.Uri.Punycode

/-!
# URIs

Documents are named by URIs in normal form: scheme and host in small letters, default ports left
out, `.` and `..` segments resolved, unsafe characters escaped. `Uri.parse?` brings an absolute URI
into that form, `Uri.text` writes it, and two names are the same document exactly if their normal
forms are equal.
-/

namespace FunctionMeter

structure Authority where
  /-- Name and password with the at sign behind them, or nothing. -/
  userinfo : String
  /-- Empty if there is no host. -/
  host : String
  port : Option Nat
  deriving DecidableEq, Repr, Inhabited

structure Uri where
  scheme : String
  authority : Option Authority
  path : String
  query : Option String
  fragment : Option String
  deriving DecidableEq, Repr, Inhabited

namespace Uri

def Authority.text (a : Authority) : String :=
  a.userinfo ++ a.host ++ match a.port with
    | some port => ":" ++ port.repr
    | none => ""

/-- The normal form as text. Without an authority, a path that starts with two slashes is set off
by `/.`, since the slashes would announce an authority. -/
def text (u : Uri) : String :=
  let authority := match u.authority with
    | some a => "//" ++ Authority.text a
    | none => if u.path.toList.take 2 = ['/', '/'] then "/." else ""
  let query := match u.query with
    | some q => "?" ++ q
    | none => ""
  let fragment := match u.fragment with
    | some f => "#" ++ f
    | none => ""
  u.scheme ++ ":" ++ authority ++ u.path ++ query ++ fragment

/-- What the general rules make of a scheme. -/
inductive SchemeKind where
  | file
  | special
  | plain
  deriving DecidableEq, Repr

def schemeKind (scheme : String) : SchemeKind :=
  if scheme = "file" then .file
  else if ["http", "https", "ws", "wss", "ftp"].contains scheme then .special
  else .plain

def defaultPort (scheme : String) : Option Nat :=
  [("http", 80), ("https", 443), ("ws", 80), ("wss", 443), ("ftp", 21)].lookup scheme

/-- A slash, or a backslash where the scheme takes it for one. -/
def isSlash (kind : SchemeKind) (c : Char) : Bool := c == '/' || (kind != .plain && c == '\\')

/-- The text with the blanks around it and the line breaks and tabs in it dropped. -/
def strip (cs : List Char) : List Char :=
  let outer (c : Char) : Bool := c.toNat ≤ 0x20
  let trimmed := ((cs.dropWhile outer).reverse.dropWhile outer).reverse
  trimmed.filter fun c => !(c == '\t' || c == '\n' || c == '\r')

/-- The scheme in small letters, and what follows its colon. -/
def readScheme? (cs : List Char) : Option (String × List Char) :=
  let isSchemeChar (c : Char) : Bool := c.isAlphanum || c == '+' || c == '-' || c == '.'
  match cs with
  | [] => none
  | first :: _ =>
    if !first.isAlpha then none
    else match cs.dropWhile isSchemeChar with
      | ':' :: rest => some (String.ofList ((cs.takeWhile isSchemeChar).map Char.toLower), rest)
      | _ => none

/-- Divides off the query and the fragment. -/
def splitTail (cs : List Char) : List Char × Option (List Char) × Option (List Char) :=
  let front := cs.takeWhile fun c => c != '?' && c != '#'
  match cs.dropWhile fun c => c != '?' && c != '#' with
  | '?' :: rest =>
    let query := rest.takeWhile (· != '#')
    match rest.dropWhile (· != '#') with
    | '#' :: fragment => (front, some query, some fragment)
    | _ => (front, some query, none)
  | '#' :: fragment => (front, none, some fragment)
  | _ => (front, none, none)

/-- A letter and a colon or a bar, as names of drives are written. -/
def isDriveLetter : List Char → Bool
  | [a, b] => a.isAlpha && (b == ':' || b == '|')
  | _ => false

def isSingleDot (segment : List Char) : Bool :=
  [".", "%2e"].contains (String.ofList (segment.map Char.toLower))

def isDoubleDot (segment : List Char) : Bool :=
  ["..", ".%2e", "%2e.", "%2e%2e"].contains (String.ofList (segment.map Char.toLower))

/-- Takes back the last segment, unless it names a drive. -/
def popSegment : List (List Char) → List (List Char)
  | [] => []
  | top :: rest => if isDriveLetter top then top :: rest else rest

/-- The segments that one raw segment adds. A file path that starts with a drive letter keeps it
as a segment of its own. -/
def ordinarySegments (kind : SchemeKind) (first : Bool) (segment : List Char) :
    List (List Char) :=
  match kind, first, segment with
  | .file, true, [a, b] => if isDriveLetter [a, b] then [[a, ':']] else [[a, b]]
  | .file, true, a :: ':' :: rest => if a.isAlpha then [[a, ':'], rest] else [a :: ':' :: rest]
  | _, _, segment => [segment]

/-- Resolves dot segments; `done` holds the segments so far, the last one first. -/
def resolveSegments (kind : SchemeKind) (first : Bool) (done : List (List Char)) :
    List (List Char) → List (List Char)
  | [] => done.reverse
  | segment :: rest =>
    let last := rest.isEmpty
    let done :=
      if isDoubleDot segment then
        if last then [] :: popSegment done else popSegment done
      else if isSingleDot segment then
        if last then [] :: done else done
      else (ordinarySegments kind first segment).reverse ++ done
    resolveSegments kind false done rest

/-- The path made of the text behind its first slash. -/
def resolvePath (kind : SchemeKind) (cs : List Char) : String :=
  let raw := (cs.map fun c => if isSlash kind c then '/' else c).splitOn '/'
  let segments := resolveSegments kind true [] (raw.map (percentEncode escapedInPath))
  let segments := if kind = .file then
      match segments.dropWhile List.isEmpty with
      | [] => [[]]
      | segments => segments
    else segments
  String.ofList (segments.flatMap ('/' :: ·))

/-- A domain in small ASCII letters; no character of a domain may have a meaning in a URI. -/
def domain? (cs : List Char) : Option String := do
  let decoded ← percentDecodeText? cs
  let labels := (decoded.toList.map Char.toLower).splitOn '.'
  let ascii := List.intercalate ['.'] (labels.map Punycode.ascii)
  let isForbidden (c : Char) : Bool :=
    c.toNat ≤ 0x20 || c.toNat == 0x7F || "#%/:<>?@[\\]^|".toList.contains c
  if ascii.isEmpty || ascii.any isForbidden then none
  else if endsInNumber ascii then (ipv4? ascii).map ipv4Text
  else some (String.ofList ascii)

/-- An address in brackets, if the host is one. -/
def bracketed? (cs : List Char) : Option (Option String) :=
  match cs with
  | '[' :: rest =>
    if rest.getLast? = some ']' then
      some ((ipv6? rest.dropLast).map fun pieces => "[" ++ ipv6Text pieces ++ "]")
    else some none
  | _ => none

/-- The host of a scheme with general rules for hosts. -/
def specialHost? (cs : List Char) : Option String :=
  match bracketed? cs with
  | some address => address
  | none => domain? cs

/-- The host of any other scheme, which is not looked into. -/
def plainHost? (cs : List Char) : Option String :=
  match bracketed? cs with
  | some address => address
  | none =>
    let isForbidden (c : Char) : Bool := c.toNat == 0 || " #/:<>?@[\\]^|".toList.contains c
    if cs.any isForbidden then none else some (String.ofList (percentEncode isControl cs))

/-- Name and password, escaped, with an at sign behind them. An empty password is left out, and
so is the at sign if nothing stands before it. -/
def userinfoText (cs : List Char) : String :=
  let name := cs.takeWhile (· != ':')
  let encode := percentEncode escapedInUserinfo
  let body := match cs.dropWhile (· != ':') with
    | ':' :: [] => encode name
    | ':' :: password => encode name ++ ':' :: encode password
    | _ => encode name
  if body.isEmpty then "" else String.ofList (body ++ ['@'])

/-- Divides at the last at sign. -/
def splitUserinfo (cs : List Char) : Option (List Char) × List Char :=
  if cs.contains '@' then
    let host := (cs.reverse.takeWhile (· != '@')).reverse
    (some (cs.take (cs.length - host.length - 1)), host)
  else (none, cs)

/-- Divides a host from its port at the first colon outside brackets. -/
def splitPort : Bool → List Char → List Char × Option (List Char)
  | _, [] => ([], none)
  | inside, c :: rest =>
    if c == ':' && !inside then ([], some rest)
    else
      let inside := if c == '[' then true else if c == ']' then false else inside
      let (host, port) := splitPort inside rest
      (c :: host, port)

/-- A port up to 65535; an empty one is none at all. -/
def port? (cs : List Char) : Option (Option Nat) :=
  if !cs.all Char.isDigit then none
  else if cs.isEmpty then some none
  else
    let n := Json.digitsValue cs
    if 65535 < n then none else some (some n)

/-- The authority between two slashes and the path. -/
def authority? (scheme : String) (kind : SchemeKind) (cs : List Char) : Option Authority := do
  let (userinfo, hostport) := splitUserinfo cs
  if userinfo.isSome && hostport.isEmpty then none
  let (host, port) := splitPort false hostport
  if host.isEmpty && (kind = .special || port.isSome) then none
  let host ← if kind = .special then specialHost? host else
    if host.isEmpty then some "" else plainHost? host
  let port ← match port with
    | some digits => port? digits
    | none => some none
  let userinfo := (userinfo.map userinfoText).getD ""
  if host.isEmpty && userinfo ≠ "" then none
  some { userinfo, host, port := if port = defaultPort scheme then none else port }

/-- The authority and path of a `file` URI, whose host is empty for the local machine. -/
def fileParts? (cs : List Char) : Option (Authority × String) := do
  let localHost : Authority := ⟨"", "", none⟩
  match cs with
  | a :: b :: rest =>
    if isSlash .file a && isSlash .file b then
      let host := rest.takeWhile (!isSlash .file ·)
      let tail := rest.drop host.length
      if isDriveLetter host then some (localHost, resolvePath .file rest)
      else
        let name ← if host.isEmpty then some "" else specialHost? host
        let name := if name = "localhost" then "" else name
        let behind := tail.drop 1
        let drive := isDriveLetter (behind.takeWhile (!isSlash .file ·))
        some (⟨"", if drive then "" else name, none⟩, resolvePath .file behind)
    else if isSlash .file a then some (localHost, resolvePath .file (b :: rest))
    else some (localHost, resolvePath .file cs)
  | [a] => some (localHost, resolvePath .file (if isSlash .file a then [] else [a]))
  | [] => some (localHost, resolvePath .file [])

/-- The authority and path of a scheme other than `file`. -/
def parts? (scheme : String) (kind : SchemeKind) (cs : List Char) :
    Option (Option Authority × String) := do
  match kind, cs with
  | .special, cs =>
    let body := cs.dropWhile (isSlash .special)
    let authority := body.takeWhile (!isSlash .special ·)
    let tail := body.drop authority.length
    let a ← authority? scheme .special authority
    some (some a, resolvePath .special (tail.drop 1))
  | _, '/' :: '/' :: body =>
    let authority := body.takeWhile (· != '/')
    let tail := body.drop authority.length
    let a ← authority? scheme kind authority
    some (some a, if tail.isEmpty then "" else resolvePath kind (tail.drop 1))
  | _, '/' :: rest => some (none, resolvePath kind rest)
  | _, cs => some (none, String.ofList (percentEncode isControl cs))

/-- Brings an absolute URI into normal form. -/
def parse? (input : String) : Option Uri := do
  let (scheme, rest) ← readScheme? (strip input.toList)
  let kind := schemeKind scheme
  let (front, query, fragment) := splitTail rest
  let (authority, path) ← if kind = .file
    then (fileParts? front).map fun (a, path) => (some a, path)
    else parts? scheme kind front
  let escapedQuery := if kind = .plain then escapedInQuery else escapedInSpecialQuery
  some {
    scheme, authority, path
    query := query.map fun q => String.ofList (percentEncode escapedQuery q)
    fragment := fragment.map fun f => String.ofList (percentEncode escapedInFragment f) }

/-- Whether the path is a list of segments, and not a text of its own. -/
def isHierarchical (u : Uri) : Bool := u.path.toList.head? = some '/'

def hasHost (u : Uri) : Bool :=
  match u.authority with
  | some a => a.host ≠ "" && a.host ≠ "localhost"
  | none => false

/-- The segments of the path. -/
def segments (u : Uri) : List (List Char) := (u.path.toList.drop 1).splitOn '/'

/-- The file path of a URI on this machine: its segments with all escapes undone. A URI with a
host, or one whose path is no list of segments, has none. -/
def filePath? (u : Uri) : Option String :=
  if !u.isHierarchical || u.hasHost then none
  else do
    let segments ← u.segments.mapM fun s => percentDecodeText? s
    let path := segments.foldl (fun path s => path ++ "/" ++ s) ""
    some (if isDriveLetter ((path.toList.reverse.take 2).reverse) then path ++ "/" else path)

/-- The URI of a file: every component of its absolute path is a segment. -/
def ofFilePath (components : List String) : Uri :=
  let encode (c : String) : List Char :=
    '/' :: percentEncode (fun c => escapedInPath c || c == '/' || c == '%') c.toList
  { scheme := "file", authority := some ⟨"", "", none⟩
    path := if components.isEmpty then "/" else String.ofList (components.flatMap encode)
    query := none, fragment := none }

/-- What follows the last dot of the last path segment, in small letters. -/
def extension (u : Uri) : Option String :=
  let name := (u.path.toList.reverse.takeWhile (· != '/')).reverse
  if name.contains '.' then
    some (String.ofList ((name.reverse.takeWhile (· != '.')).reverse.map Char.toLower))
  else none

def ofJson? (j : Json) : Option Uri := (Json.string? j).bind parse?

def toJson (u : Uri) : Json := .str u.text

end Uri

end FunctionMeter
