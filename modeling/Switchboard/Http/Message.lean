/-
  HTTP requests and responses.

  A request is built from texts in the order method, URI, headers, and the first part that is not
  valid decides (`RequestFault`).  A body is a sequence of frames: data, a failure of the
  connection, or nothing more for ever.
-/
import Switchboard.Http.Uri
import Switchboard.Text.Utf8
import Switchboard.Named

namespace Switchboard.Http

/-! ## Methods, versions -/

/-- The bytes of a token, as method and header names are made of. -/
def tokenMarks : List Char := "!#$%&'*+-.^_`|~".toList

/-- A character of a token. -/
def isTokenChar (c : Char) : Bool := c.isAlphanum || tokenMarks.contains c

/-- At least one character, and no other than those of a token. -/
def isToken (s : String) : Bool := s != "" && s.toList.all isTokenChar

/-- A method.  Its case counts. -/
structure Method where
  name : String
  deriving Repr, DecidableEq

namespace Method

/-- The method of a name, which must be a token. -/
def parse? (name : String) : Option Method := if isToken name then some ⟨name⟩ else none

/-- The method of calls. -/
def post : Method := ⟨"POST"⟩
/-- The method of probes and of the static file. -/
def get : Method := ⟨"GET"⟩
/-- `GET` without the body of the answer. -/
def head : Method := ⟨"HEAD"⟩
/-- The method that a browser asks with whether it may send a request. -/
def options : Method := ⟨"OPTIONS"⟩
/-- The method that asks for a tunnel. -/
def connect : Method := ⟨"CONNECT"⟩

end Method

/-- The versions of HTTP. -/
inductive Version where
  | http09
  | http10
  | http11
  | http2
  | http3
  deriving Repr, DecidableEq

/-- The version as a request line names it. -/
def Version.render : Version → String
  | .http09 => "HTTP/0.9"
  | .http10 => "HTTP/1.0"
  | .http11 => "HTTP/1.1"
  | .http2 => "HTTP/2.0"
  | .http3 => "HTTP/3.0"

/-- Every version, the oldest first. -/
def Version.all : List Version := [.http09, .http10, .http11, .http2, .http3]

/-- The version of a text. -/
def Version.parse? (s : String) : Option Version := Version.all.find? (·.render == s)

/-! ## Headers -/

/-- Headers in the order they were added, under lower-case names. -/
abbrev Headers := Named Bytes

/-- A byte of a header value: visible, a space, a tab, or outside ASCII. -/
def isHeaderByte (b : UInt8) : Bool := (0x20 ≤ b && b != 0x7F) || b == 0x09

/-- A byte of a header value that reads as text. -/
def isVisible (b : UInt8) : Bool := (0x20 ≤ b && b < 0x7F) || b == 0x09

/-- A name in lower case; header names are compared without regard to case. -/
def lowerCase (s : String) : String := String.ofList (s.toList.map Char.toLower)

/-- The first value under a header name in any case. -/
def Headers.value? (h : Headers) (name : String) : Option Bytes := h.first? (lowerCase name)

/-- The first value under a header name, if it reads as text. -/
def Headers.text? (h : Headers) (name : String) : Option String :=
  (h.value? name).bind fun v => if v.all isVisible then Utf8.decode? v else none

/-- The text of a header as its bytes. -/
def header (name value : String) : String × Bytes := (name, Utf8.encode value)

/-- Whether a header is present. -/
def Headers.has (h : Headers) (name : String) : Bool := (h.value? name).isSome

/-! ## Bodies -/

/-- A piece of a body as it arrives. -/
inductive Frame where
  | data (bytes : Bytes)
  | failure (message : String)
  | pending
  deriving Repr, DecidableEq

/-! ## Requests -/

/-- A request, whose body may still have to arrive. -/
structure Request where
  method : Method
  uri : Uri
  version : Version
  headers : Headers
  body : List Frame
  /-- Whether a router has attached data of its own. -/
  routed : Bool := false
  deriving Repr, DecidableEq

/-- The first part of a request that is not valid. -/
inductive RequestFault where
  | method
  | uri (fault : UriFault)
  | headerName
  | headerValue
  deriving Repr, DecidableEq

/-- What is said of a request that cannot be built. -/
def RequestFault.message : RequestFault → String
  | .method => "invalid HTTP method"
  | .uri fault => fault.message
  | .headerName => "invalid HTTP header name"
  | .headerValue => "failed to parse header value"

/-- Checks a header and puts its name into lower case. -/
def Headers.entry (name : String) (value : Bytes) : Except RequestFault (String × Bytes) :=
  if !isToken name then .error .headerName
  else if !value.all isHeaderByte then .error .headerValue
  else .ok (lowerCase name, value)

/-- Checks headers in order; the first that is not valid decides. -/
def Headers.ofList (xs : List (String × Bytes)) : Except RequestFault Headers :=
  xs.mapM fun (name, value) => Headers.entry name value

/-- Builds a request from its texts. -/
def Request.build (method uri : String) (version : Version) (headers : List (String × Bytes))
    (body : List Frame) : Except RequestFault Request := do
  let some method := Method.parse? method | .error .method
  let uri ← (Uri.parse uri).mapError .uri
  let headers ← Headers.ofList headers
  return ⟨method, uri, version, headers, body, false⟩

/-! ## Responses -/

/-- A response with its whole body. -/
structure Response where
  status : Nat
  headers : Headers
  body : Bytes
  deriving Repr, DecidableEq

namespace Response

/-- A response of a status alone. -/
def ofStatus (status : Nat) : Response := ⟨status, [], []⟩

/-- Sets a header in place of any there is. -/
def setHeader (r : Response) (name value : String) : Response :=
  { r with headers := r.headers.remove name ++ [header name value] }

end Response

end Switchboard.Http
