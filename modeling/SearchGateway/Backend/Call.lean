/-
  SearchGateway.Backend.Call

  The calls that the gateway makes to a backend, what each of them returns, and how
  they fail.
-/
import SearchGateway.Backend.Response
import SearchGateway.Query.Search

namespace SearchGateway.Backend

open SearchGateway.Json (Value)
open SearchGateway.Query (Collection SearchRequest)

/-- A call to a backend. -/
inductive Call where
  | search (collection : Collection) (request : SearchRequest)
  | list (collection : String)
  | create (collection : String) (body : Value)
  | update (collection id : String) (body : Value)
  | delete (collection id : String)
  deriving Repr

/-- What a call returns when it succeeds. -/
def Call.Reply : Call → Type
  | .search _ _ => SearchResponse
  | .list _ | .create _ _ | .update _ _ _ => Value
  | .delete _ _ => Unit

/-- Why a call fails. -/
inductive BackendError where
  /-- No backend is configured. -/
  | credentialMissing
  /-- The backend could not be reached or refused the call. -/
  | downstream (message : String)
  deriving DecidableEq, Repr

namespace BackendError

/-- The stable code of an error. -/
def code : BackendError → String
  | credentialMissing => "CRM_BACKEND_CREDENTIAL_MISSING"
  | downstream _ => "CRM_BACKEND_DOWNSTREAM_FAILURE"

/-- The wording of an error. -/
def message : BackendError → String
  | credentialMissing => "HubSpot not configured"
  | downstream message => message

end BackendError

/-- A backend, as what it answers to each call. -/
abbrev Service : Type := (call : Call) → Except BackendError call.Reply

end SearchGateway.Backend
