/-
  SearchGateway.Gateway.Cors

  Which origins may use the gateway from a browser, and the headers that say so.
-/
import SearchGateway.Http.Message

namespace SearchGateway.Gateway

open SearchGateway.Http (Headers Request Response)

/-- Which origins are allowed. -/
inductive Cors where
  | any
  | listed (origins : List String)
  deriving DecidableEq, Repr

namespace Cors

/-- The policy of a list of configured origins.  An empty list allows any origin, and entries that
    cannot stand in a header are left out of the others.  The wildcard cannot be listed. -/
def ofOrigins? (origins : List String) : Option Cors :=
  if origins.isEmpty then some any
  else
    let legal := origins.filter Http.isHeaderValue
    if legal.contains "*" then none else some (listed legal)

/-- The origin that a response allows. -/
def allowedOrigin? (cors : Cors) (request : Request) : Option String :=
  match cors with
  | any => some "*"
  | listed origins =>
    (request.headers.get? "origin").filter fun origin => origins.contains origin

/-- The header that says which origin is allowed. -/
def originHeaders (cors : Cors) (request : Request) : Headers :=
  (cors.allowedOrigin? request).toList.map fun origin => ("access-control-allow-origin", origin)

/-- The header that says on what a response depends. -/
def varyHeader : String × String :=
  ("vary", "origin, access-control-request-method, access-control-request-headers")

/-- The headers of a response to a preflight request. -/
def preflightHeaders (cors : Cors) (request : Request) : Headers :=
  cors.originHeaders request ++
    [varyHeader, ("access-control-allow-methods", "*"), ("access-control-allow-headers", "*")]

/-- The headers of any other response. -/
def responseHeaders (cors : Cors) (request : Request) : Headers :=
  cors.originHeaders request ++ [varyHeader]

end Cors

end SearchGateway.Gateway
