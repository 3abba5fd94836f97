/-
  SearchGateway.Gateway.Server

  The whole gateway as a function from requests to responses.
-/
import SearchGateway.Backend.Client
import SearchGateway.Config.Settings
import SearchGateway.Gateway.Cors
import SearchGateway.Gateway.Endpoint

namespace SearchGateway.Gateway

open SearchGateway.Backend (Call Client Service Transport)
open SearchGateway.Config (Settings)
open SearchGateway.Http (Request Response)

/-- A gateway that is set up to answer. -/
structure Server where
  port : Nat
  cors : Cors
  backend : Option Service

namespace Server

/-- Sets up a server; none when the configured origins are refused. -/
def make? (port : Nat) (corsOrigins : List String) (backend : Option Service) : Option Server :=
  (Cors.ofOrigins? corsOrigins).map fun cors => ⟨port, cors, backend⟩

/-- Sets up the server of some settings.  Its backend is the configured client, if there is one. -/
def ofSettings? (settings : Settings) (transport : Transport) : Option Server :=
  make? settings.port settings.corsOrigins
    ((Client.make settings.backend.baseUrl settings.backend.token).toOption.map
      fun client => client.service transport)

/-- What a response may tell about a server. -/
def status (server : Server) (uptimeSecs : Nat) (now : Timestamp) : Status where
  port := server.port
  configured := server.backend.isSome
  uptimeSecs := uptimeSecs
  now := now

/-- The response to a preflight request.  A route that has no such method of its own names those
    that it has. -/
def preflight (server : Server) (request : Request) : Response :=
  let allow := (Route.ofPath? request.path).toList.map fun route => ("allow", route.allow)
  { Response.bare 200 with headers := server.cors.preflightHeaders request ++ allow }

/-- What the routes do for a request. -/
def plan (status : Status) (request : Request) : Plan :=
  match Route.ofPath? request.path with
  | none => .answer (.bare 404)
  | some route => route.plan status request

/-- The response to a request, and the call that is made to the backend for it. -/
def handle (server : Server) (uptimeSecs : Nat) (now : Timestamp) (request : Request) :
    Response × Option Call :=
  if request.method = .options then (server.preflight request, none)
  else
    let (response, call) :=
      (plan (server.status uptimeSecs now) request).run server.backend
    let response := response.withHeaders (server.cors.responseHeaders request)
    (if request.method = .head then { response with headOnly := true } else response, call)

end Server

end SearchGateway.Gateway
