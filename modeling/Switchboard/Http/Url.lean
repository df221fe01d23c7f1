/-
  URLs that a client sends requests to.

  `Url.parse?` reads an `http` or `https` URL and puts it into the form in which it is sent: dot
  segments are resolved, a backslash is a slash, what may not stand in a path or query is escaped,
  existing escapes stay, and a fragment is dropped.  Which hosts there are is left to whoever
  connects to them, so the reading of authorities is given to it.  `Url.withPair` adds a name and a
  value to the query, and `Url.target` is what the request line names.
-/
import Switchboard.Http.Form
import Switchboard.Json.Numeral

namespace Switchboard.Http

/-- An `http` or `https` URL in the form in which it is sent. -/
structure Url where
  scheme : String
  /-- The authority as it was read. -/
  authority : String
  path : String
  query : Option String
  deriving Repr, DecidableEq

namespace Url

/-! ## Escaping -/

/-- The characters that are escaped everywhere: controls, everything outside ASCII, the space, the
    double quote, the number sign and the angle brackets. -/
def isUnsafe (c : Char) : Bool := c ≤ ' ' || '~' < c || "\"#<>".toList.contains c

/-- The characters that are escaped in a path. -/
def isUnsafeInPath (c : Char) : Bool := isUnsafe c || "?^`\x7b\x7d".toList.contains c

/-- The characters that are escaped in a query. -/
def isUnsafeInQuery (c : Char) : Bool := isUnsafe c || c == '\''

/-- Escapes the bytes of the characters that a class holds. -/
def escape (escaped : Char → Bool) (cs : List Char) : String :=
  String.ofList (cs.flatMap fun c =>
    if escaped c then (String.utf8EncodeChar c).flatMap Form.percent else [c])

/-! ## Paths -/

/-- A dot, which may be escaped. -/
def dropDot? : List Char → Option (List Char)
  | '.' :: cs => some cs
  | '%' :: '2' :: 'e' :: cs => some cs
  | '%' :: '2' :: 'E' :: cs => some cs
  | _ => none

/-- The segment that stands for the place where it is. -/
def isSingleDot (segment : List Char) : Bool := dropDot? segment == some []

/-- The segment that stands for the place above. -/
def isDoubleDot (segment : List Char) : Bool := (dropDot? segment).bind dropDot? == some []

/-- A slash in either direction. -/
def isSlash (c : Char) : Bool := c == '/' || c == '\\'

/-- Resolves the dots in the segments of a path; the segments before are in reverse.  A dot at the
    end leaves an empty segment. -/
def resolve (before : List (List Char)) : List (List Char) → List (List Char)
  | [] => before.reverse
  | [last] =>
    if isDoubleDot last then resolve ([] :: before.drop 1) []
    else if isSingleDot last then resolve ([] :: before) []
    else resolve (last :: before) []
  | s :: rest =>
    if isDoubleDot s then resolve (before.drop 1) rest
    else if isSingleDot s then resolve before rest
    else resolve (s :: before) rest
  termination_by segments => segments.length

/-- The path of what follows an authority, up to its query. -/
def normalizePath (cs : List Char) : String :=
  let segments := match cs with
    | [] => [[]]
    | _ :: cs => resolve [] (cs.splitOnP isSlash)
  "/" ++ "/".intercalate (segments.map (escape isUnsafeInPath))

/-! ## Reading -/

/-- Whether an authority names a host by letters, digits, dots and hyphens, and at most a port. -/
def isPlainAuthority (cs : List Char) : Bool :=
  let host := cs.takeWhile (· != ':')
  let port := (cs.dropWhile (· != ':')).drop 1
  !host.isEmpty && host.all (fun c => c.isAlphanum || c == '.' || c == '-') &&
    port.all Char.isDigit &&
    Json.digitsValue (Utf8.encode (String.ofList port)) ≤ 65535

/-- Reads plain authorities, which stay as they are, and no others. -/
def plainAuthority? (cs : List Char) : Option String :=
  if isPlainAuthority cs then some (String.ofList cs) else none

/-- The characters that are dropped wherever they stand. -/
def isDropped (c : Char) : Bool := c == '\t' || c == '\n' || c == '\r'

/-- The text without controls and spaces at both ends, and without line breaks and tabs. -/
def clean (cs : List Char) : List Char :=
  let front := cs.dropWhile (· ≤ ' ')
  ((front.reverse.dropWhile (· ≤ ' ')).reverse).filter (!isDropped ·)

/-- A character behind which a query or a fragment begins. -/
def endsPath (c : Char) : Bool := c == '?' || c == '#'

/-- Reads what follows the scheme and its colon. -/
def afterScheme (authority? : List Char → Option String) (scheme : String)
    (cs : List Char) : Option Url :=
  let rest := cs.dropWhile isSlash
  let ends := fun c => isSlash c || endsPath c
  let behind := rest.dropWhile (!ends ·)
  let query := match behind.dropWhile (!endsPath ·) with
    | '?' :: q => some (escape isUnsafeInQuery (q.takeWhile (· != '#')))
    | _ => none
  (authority? (rest.takeWhile (!ends ·))).map fun authority =>
    ⟨scheme, authority, normalizePath (behind.takeWhile (!endsPath ·)), query⟩

/-- Reads an `http` or `https` URL; `authority?` reads the authority in it. -/
def parse? (authority? : List Char → Option String) (text : String) : Option Url :=
  let cs := clean text.toList
  let scheme := String.ofList ((cs.takeWhile (· != ':')).map Char.toLower)
  if scheme = "http" ∨ scheme = "https" then
    afterScheme authority? scheme ((cs.dropWhile (· != ':')).drop 1)
  else none

/-! ## Sending -/

/-- Adds a name and a value behind the query. -/
def withPair (u : Url) (name value : String) : Url :=
  let pair := Form.encodePair name value
  match u.query with
  | none | some "" => { u with query := some pair }
  | some q => { u with query := some (q ++ "&" ++ pair) }

/-- The path and query of a request to the URL. -/
def target (u : Url) : String :=
  u.path ++ (match u.query with | some q => "?" ++ q | none => "")

end Url

end Switchboard.Http
