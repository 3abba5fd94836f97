/-
  SearchGateway.Gateway.Plan

  What the gateway does for a request: it answers at once, or it makes one call to
  the backend and answers by the outcome.
-/
import SearchGateway.Backend.Call
import SearchGateway.Http.Message

namespace SearchGateway.Gateway

open SearchGateway.Backend (BackendError Call Service)
open SearchGateway.Http (Response)

/-- What the gateway does for a request. -/
inductive Plan where
  | answer (response : Response)
  | ask (call : Call) (respond : Except BackendError call.Reply → Response)

namespace Plan

/-- The response of a plan, and the call that is made for it.  Without a backend no call is made, and
    the outcome is that credentials are missing. -/
def run (backend : Option Service) : Plan → Response × Option Call
  | answer response => (response, none)
  | ask call respond =>
    match backend with
    | none => (respond (.error .credentialMissing), none)
    | some backend => (respond (backend call), some call)

/-- A plan that needs a value first, or else answers with the response that refuses it. -/
def need {α : Type} (value : Except Response α) (plan : α → Plan) : Plan :=
  match value with
  | .error response => answer response
  | .ok x => plan x

end Plan

end SearchGateway.Gateway
