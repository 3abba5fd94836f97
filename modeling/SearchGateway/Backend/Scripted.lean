/-
  SearchGateway.Backend.Scripted

  A backend that follows a script: searches get a fixed response, the other calls an
  echo of what they carry, and all of them can be made to fail.
-/
import SearchGateway.Backend.Call

namespace SearchGateway.Backend

open SearchGateway.Json (Value)

/-- The script of a backend. -/
structure Script where
  /-- The response to every search. -/
  response : SearchResponse := {}
  /-- The message with which every call fails. -/
  failure : Option String := none
  deriving Repr

/-- The reply that a script has for a call that does not fail. -/
def Script.reply (script : Script) : (call : Call) → call.Reply
  | .search _ _ => script.response
  | .list collection =>
    (Value.object [("collection", .string collection), ("results", .array [])] : Value)
  | .create _ body => (Value.object [("created", body), ("id", .string "101")] : Value)
  | .update _ id body => (Value.object [("id", .string id), ("updated", body)] : Value)
  | .delete _ _ => ()

/-- The backend that follows a script. -/
def Script.service (script : Script) : Service := fun call =>
  match script.failure with
  | some message => .error (.downstream message)
  | none => .ok (script.reply call)

end SearchGateway.Backend
