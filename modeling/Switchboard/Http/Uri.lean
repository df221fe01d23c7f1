/-
  Request URIs.

  `Uri.parse` reads the three forms a request line may hold: a path with an optional query, a whole
  URI with scheme and authority, and a bare authority; `*` stands for itself.  A fragment is
  dropped.  `Uri.render` writes a URI; an empty path behind an authority that has a scheme reads and
  prints as `/`.
-/

namespace Switchboard.Http

/-- The parts of a URI; the path is empty only where a bare authority was read. -/
structure Uri where
  scheme : Option String
  authority : Option String
  path : String
  query : Option String
  deriving Repr, DecidableEq

/-- Why a text is no URI. -/
inductive UriFault where
  | empty
  | tooLong
  | invalidCharacter
  | invalidAuthority
  | invalidFormat
  | schemeTooLong
  deriving Repr, DecidableEq

/-- What is said of a text that is no URI. -/
def UriFault.message : UriFault → String
  | .empty => "empty string"
  | .tooLong => "uri too long"
  | .invalidCharacter => "invalid uri character"
  | .invalidAuthority => "invalid authority"
  | .invalidFormat => "invalid format"
  | .schemeTooLong => "scheme too long"

namespace Uri

/-- The root path without a query. -/
def root : Uri := ⟨none, none, "/", none⟩

/-- The URI as a text. -/
def render (u : Uri) : String :=
  (match u.scheme with | some s => s ++ "://" | none => "") ++ u.authority.getD "" ++ u.path ++
    (match u.query with | some q => "?" ++ q | none => "")

/-! ## Path and query -/

/-- The characters a path may hold: none below `!`, no DEL, and neither angle bracket. -/
def isPathChar (c : Char) : Bool := '!' ≤ c && c != '\x7f' && c != '<' && c != '>'

/-- The characters a query may hold: those of a path except the double quote. -/
def isQueryChar (c : Char) : Bool := isPathChar c && c != '"'

/-- A character in front of the fragment. -/
def notFragment (c : Char) : Bool := c != '#'

/-- Reads a path, a query behind `?` and a fragment behind `#`. -/
def pathAndQuery (cs : List Char) : Except UriFault (String × Option String) :=
  let kept := cs.takeWhile notFragment
  let path := kept.takeWhile (· != '?')
  if !path.all isPathChar then .error .invalidCharacter
  else
    let shown := if path = [] then "/" else String.ofList path
    match kept.dropWhile (· != '?') with
    | [] => .ok (shown, none)
    | _ :: query =>
      if query.all isQueryChar then .ok (shown, some (String.ofList query))
      else .error .invalidCharacter

/-! ## Authority -/

/-- The characters that may stand in an authority besides letters and digits. -/
def authorityMarks : List Char := "!$&'()*+,-.:;=@[]_~".toList

/-- A character that may stand in an authority, percent signs apart. -/
def isAuthorityChar (c : Char) : Bool := c.isAlphanum || authorityMarks.contains c

/-- A character behind which no authority goes on. -/
def endsAuthority (c : Char) : Bool := c == '/' || c == '?' || c == '#'

/-- What has been seen of an authority: the colons since the last `@` or `]`, the brackets, and
    whether a percent sign stands outside user information. -/
structure Seen where
  colons : Nat := 0
  opened : Bool := false
  closed : Bool := false
  percent : Bool := false

/-- The most colons between two marks that reset the count. -/
def maxColons : Nat := 8

/-- Looks at the next character of an authority. -/
def Seen.next (s : Seen) (c : Char) : Except UriFault Seen :=
  if c = ':' then
    if s.colons < maxColons then .ok { s with colons := s.colons + 1 } else .error .invalidAuthority
  else if c = '[' then
    if s.percent || s.opened then .error .invalidAuthority else .ok { s with opened := true }
  else if c = ']' then
    if !s.opened || s.closed then .error .invalidAuthority
    else .ok { s with closed := true, colons := 0, percent := false }
  else if c = '@' then .ok { s with colons := 0, percent := false }
  else if c = '%' then .ok { s with percent := true }
  else if isAuthorityChar c then .ok s
  else .error .invalidCharacter

/-- Checks an authority: brackets in a pair, at most one colon in front of the port, something
    behind the last `@`, and no percent sign in the host. -/
def checkAuthority (cs : List Char) : Except UriFault Unit := do
  let s ← cs.foldlM Seen.next {}
  if s.opened != s.closed || 1 < s.colons || s.percent || cs.getLast? == some '@' then
    .error .invalidAuthority

/-! ## Scheme -/

/-- A character that may stand in a scheme. -/
def isSchemeChar (c : Char) : Bool := c.isAlphanum || c == '+' || c == '-' || c == '.'

/-- The length of the longest scheme. -/
def maxScheme : Nat := 64

/-- The scheme in front of `://` and what follows, if there is one.  The two common schemes are read
    in any case and kept in lower case. -/
def splitScheme (cs : List Char) : Except UriFault (Option (String × List Char)) :=
  let name := cs.takeWhile isSchemeChar
  match cs.dropWhile isSchemeChar with
  | ':' :: '/' :: '/' :: rest =>
    let lower := String.ofList (name.map Char.toLower)
    if lower = "http" ∨ lower = "https" then .ok (some (lower, rest))
    else if maxScheme < name.length then .error .schemeTooLong
    else .ok (some (String.ofList name, rest))
  | _ => .ok none

/-! ## The three forms -/

/-- The longest URI in bytes. -/
def maxLength : Nat := 65534

/-- Reads a URI that does not begin with `/`. -/
def parseFull (cs : List Char) : Except UriFault Uri := do
  match ← splitScheme cs with
  | none =>
    let authority := cs.takeWhile (!endsAuthority ·)
    checkAuthority authority
    if authority.length = cs.length then
      return ⟨none, some (String.ofList cs), "", none⟩
    else .error (if cs.length = 1 then .invalidCharacter else .invalidFormat)
  | some (scheme, rest) =>
    let authority := rest.takeWhile (!endsAuthority ·)
    checkAuthority authority
    if authority = [] then .error .invalidFormat
    else
      let (path, query) ← pathAndQuery (rest.dropWhile (!endsAuthority ·))
      return ⟨some scheme, some (String.ofList authority), path, query⟩

/-- Reads a URI in any of its forms. -/
def parse (text : String) : Except UriFault Uri :=
  if text.utf8ByteSize > maxLength then .error .tooLong
  else
    match text.toList with
    | [] => .error .empty
    | ['*'] => .ok ⟨none, none, "*", none⟩
    | '/' :: cs => do
      let (path, query) ← pathAndQuery ('/' :: cs)
      return ⟨none, none, path, query⟩
    | cs => parseFull cs

end Uri

end Switchboard.Http
