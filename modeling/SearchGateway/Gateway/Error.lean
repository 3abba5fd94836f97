/-
  SearchGateway.Gateway.Error

  Why the gateway does not answer a request as asked.
-/
import SearchGateway.Backend.Call

namespace SearchGateway.Gateway

open SearchGateway.Backend (BackendError)
open SearchGateway.Query (QueryError)

/-- Why the gateway does not answer a request as asked. -/
inductive GatewayError where
  /-- The search is rejected. -/
  | query (error : QueryError)
  /-- The body is no request. -/
  | invalidBody (reason : String)
  | backend (error : BackendError)
  deriving DecidableEq, Repr

namespace GatewayError

/-- The status code of an error. -/
def status : GatewayError → Nat
  | query _ | invalidBody _ => 400
  | backend .credentialMissing => 503
  | backend (.downstream _) => 500

/-- The stable code of an error. -/
def code : GatewayError → String
  | query e => e.code
  | invalidBody _ => "CRM_GATEWAY_INVALID_BODY"
  | backend e => e.code

/-- The wording of an error. -/
def message : GatewayError → String
  | query e => e.message
  | invalidBody reason => "Invalid request body: " ++ reason
  | backend e => e.message

/-- The collections to show to the caller, where the error is about the collection. -/
def supportedEndpoints : GatewayError → Option (List String)
  | query e => e.supportedEndpoints
  | _ => none

/-- The JSON object of an error. -/
def toJson (error : GatewayError) : Json.Value :=
  .object [("error", .string error.message), ("code", .string error.code)]

end GatewayError

end SearchGateway.Gateway
