/-
  Which operation a call is for.

  A service with one operation needs no name.  Otherwise the query decides when it names one,
  whatever the body holds; without that, the body must be an object with the name as a string.
-/
import Switchboard.Call.Context
import Switchboard.Call.Error
import Switchboard.Contract

namespace Switchboard

open Json

/-- The name in the body of a call. -/
def selectFromBody (param : String) (payload : Bytes) : Except CallError String :=
  match document envelope payload with
  | .error fault => .error (.badRequest (fault.message payload))
  | .ok members =>
    match members.last? param with
    | some (.text name) => .ok name
    | some _ => .error (.badRequest ("operation selector `" ++ param ++ "` must be a string"))
    | none => .error (.missingOperation param)

/-- The name of the operation that a call is for. -/
def selectOperation (selector : Selector) (context : CallContext) (payload : Bytes) :
    Except CallError String :=
  match selector with
  | .fixed operation => .ok operation
  | .named param =>
    match context.queryParam param with
    | some name => .ok name
    | none => selectFromBody param payload

end Switchboard
