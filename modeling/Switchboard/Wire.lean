/-
  Records that every service shares: the empty record and the body of an error.
-/
import Switchboard.Json.Record

namespace Switchboard

open Json

/-- The content type of every request and response. -/
def jsonContentType : String := "application/json"

/-- The record without fields, the answer of an operation that has nothing to say. -/
def unitRecord : Record Unit where
  name := "Unit"
  fields := .nil
  ofValues _ := ()
  toValues _ := ()
  toValues_ofValues := Values.eq_nil

/-- The body of a response to a call that has failed. -/
structure ErrorBody where
  message : String
  deriving Repr, DecidableEq

/-- The one field of an error body. -/
def ErrorBody.record : Record ErrorBody where
  name := "ErrorBody"
  fields := .cons ⟨"message", .text⟩ .nil
  ofValues v := ⟨v.1⟩
  toValues b := (b.message, ())

/-- The document of an error body. -/
def ErrorBody.render (b : ErrorBody) : String := "\x7b\"message\":" ++ writeText b.message ++ "\x7d"

theorem ErrorBody.write_eq_render (b : ErrorBody) : record.codec.write b = .ok b.render := by
  rfl

end Switchboard
