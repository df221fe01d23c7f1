/-
  Reading the body of a request.

  Frames are taken in order.  A frame larger than what is left of the limit ends the reading at
  once, so a failure behind it is not seen; a frame that never comes keeps it from ending.
-/
import Switchboard.Http.Message

namespace Switchboard

open Http

/-- How the reading of a body ends; `unfinished` when it never does. -/
inductive BodyResult where
  | complete (bytes : Bytes)
  | tooLarge
  | failed (message : String)
  | unfinished
  deriving Repr, DecidableEq

/-- Puts bytes in front of a complete body. -/
def BodyResult.behind (front : Bytes) : BodyResult → BodyResult
  | .complete bytes => .complete (front ++ bytes)
  | other => other

/-- Reads the frames of a body of at most `limit` bytes. -/
def readBody (limit : Nat) : List Frame → BodyResult
  | [] => .complete []
  | .data bytes :: frames =>
    if limit < bytes.length then .tooLarge
    else (readBody (limit - bytes.length) frames).behind bytes
  | .failure message :: _ => .failed message
  | .pending :: _ => .unfinished

end Switchboard
