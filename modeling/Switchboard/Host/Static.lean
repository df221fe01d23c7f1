/-
  The file behind `GET /`.
-/
import Switchboard.Host.Config
import Switchboard.Http.Message

namespace Switchboard.Host

open Http

/-- The last part of a path. -/
def baseName (path : String) : List Char :=
  ((path.toList.reverse.dropWhile (· == '/')).takeWhile (· != '/')).reverse

/-- The part of a file's name behind its last dot, in lower case; a name without a dot, or with its
    only dot in front, has none. -/
def extension? (path : String) : Option String :=
  let cs := (baseName path).reverse
  match cs.dropWhile (· != '.') with
  | [] | [_] => none
  | _ => some (lowerCase (String.ofList (cs.takeWhile (· != '.')).reverse))

/-- The content types of the extensions that are known. -/
def contentTypes : Named String :=
  [("html", "text/html"), ("htm", "text/html"), ("json", "application/json"),
    ("js", "text/javascript"), ("css", "text/css"), ("txt", "text/plain"), ("svg", "image/svg+xml"),
    ("gz", "application/gzip")]

/-- The content type of a file. -/
def contentType (name : String) : String :=
  ((extension? name).bind contentTypes.first?).getD "application/octet-stream"

/-- The header of a length. -/
def contentLength (n : Nat) : String × Bytes := header "content-length" (toString n)

/-- Serves a file to `GET` and `HEAD`. -/
def serveFile (f : StaticFile) (m : Method) : Response :=
  if m ≠ .get ∧ m ≠ .head then (Response.ofStatus 405).setHeader "allow" "GET,HEAD"
  else
    match f.content with
    | none => .ofStatus 404
    | some content =>
      ⟨200, [header "content-type" (contentType f.name), header "accept-ranges" "bytes",
        contentLength content.length], if m = .head then [] else content⟩

end Switchboard.Host
