/-
  SearchGateway.Backend.Client

  The client of the remote backend: the web request that a call becomes, what is
  sent for the call, and what it returns for the reply.  How requests are delivered
  is left to a transport.
-/
import SearchGateway.Backend.Call
import SearchGateway.Http.Header
import SearchGateway.Http.Status
import SearchGateway.Http.Url
import SearchGateway.Text.Quoted

namespace SearchGateway.Backend

open SearchGateway.Json (Value)
open SearchGateway.Http (Url)

/-- A client with its base address and access token. -/
structure Client where
  baseUrl : String
  token : String
  deriving DecidableEq, Repr

/-- The method of an outgoing request. -/
inductive Verb where
  | get
  | post
  | patch
  | delete
  deriving DecidableEq, Repr

/-- The name of a method. -/
def Verb.name : Verb → String
  | .get => "GET"
  | .post => "POST"
  | .patch => "PATCH"
  | .delete => "DELETE"

/-- A web request to the backend. -/
structure Outgoing where
  verb : Verb
  url : Url
  authorization : String
  /-- The JSON text of the body. -/
  body : Option String
  deriving DecidableEq, Repr

namespace Outgoing

/-- The content type of a request; only bodies have one. -/
def contentType (request : Outgoing) : Option String :=
  request.body.map fun _ => "application/json"

end Outgoing

/-- What becomes of a request. -/
inductive Delivery where
  | reply (status : Nat) (body : List UInt8)
  /-- No connection, or one that was closed without a reply. -/
  | unreachable
  deriving DecidableEq, Repr

/-- A transport delivers requests. -/
abbrev Transport : Type := Outgoing → Delivery

/-- Sends a request over a transport.  The requests that are sent are written down in order. -/
def Transport.send (transport : Transport) (request : Outgoing) :
    StateM (List Outgoing) Delivery := do
  modify (· ++ [request])
  return transport request

namespace Client

/-! ## Set-up -/

/-- The token without whitespace around it, unless nothing is left of it. -/
def usableToken? (token : Option String) : Option String :=
  match token with
  | none => none
  | some token =>
    let trimmed := Text.trim token.toList
    if trimmed.isEmpty then none else some (String.ofList trimmed)

/-- Makes a client; slashes at the end of the base address are dropped. -/
def make (baseUrl : String) (token : Option String) : Except BackendError Client :=
  match usableToken? token with
  | none => .error .credentialMissing
  | some token =>
    .ok ⟨String.ofList (Text.trimEnd (· == '/') baseUrl.toList), token⟩

/-- A description of a client that does not show its token. -/
def describe (client : Client) : String :=
  "HubSpotClient \x7b base_url: " ++ String.ofList (Text.Quoted.encode client.baseUrl.toList) ++
    ", token: \"<redacted>\" \x7d"

/-! ## Requests -/

/-- The address of a collection, as it is written before it is read as an address. -/
def objectsAddress (client : Client) (collection : String) : String :=
  client.baseUrl ++ "/crm/v3/objects/" ++ collection

/-- The method of a call. -/
def verb : Call → Verb
  | .search _ _ | .create _ _ => .post
  | .list _ => .get
  | .update _ _ _ => .patch
  | .delete _ _ => .delete

/-- The address of a call, as it is written before it is read as an address. -/
def address (client : Client) : Call → String
  | .search collection _ => client.objectsAddress collection.id ++ "/search"
  | .list collection | .create collection _ => client.objectsAddress collection
  | .update collection id _ | .delete collection id =>
    client.objectsAddress collection ++ "/" ++ id

/-- The body of a call. -/
def body : Call → Option String
  | .search _ request => some request.wire
  | .create _ body | .update _ _ body => some body.print
  | .list _ | .delete _ _ => none

/-- The request of a call; none when the address cannot be read or the token cannot stand in a
    header. -/
def request? (client : Client) (call : Call) : Option Outgoing :=
  match Url.ofText? (client.address call).toList with
  | none => none
  | some url =>
    let authorization := "Bearer " ++ client.token
    if Http.isHeaderValue authorization then some ⟨verb call, url, authorization, body call⟩
    else none

/-! ## Replies -/

/-- What a call returns for the body of a successful reply. -/
def readReply : (call : Call) → List UInt8 → Option call.Reply
  | .search _ _, bytes => (SearchResponse.parse bytes).toOption
  | .list _, bytes | .create _ _, bytes | .update _ _ _, bytes =>
    (Json.read Json.value bytes).toOption
  | .delete _ _, _ => some ()

/-- The failure of a reply that reports one. -/
def apiError (status : Nat) (body : List UInt8) : BackendError :=
  .downstream ("HubSpot API error (" ++ Http.statusLine status ++ "): " ++
    String.ofList (Text.Utf8.decodeLossy body))

/-- The failure of a successful reply whose body cannot be read. -/
def unreadableReply : BackendError :=
  .downstream "Failed to parse HubSpot response: error decoding response body"

/-- The failure of a request that got no reply. -/
def unreachable (url : Url) : BackendError :=
  .downstream ("error sending request for url (" ++ String.ofList url.text ++ ")")

/-- The failure of a call that cannot be written as a request. -/
def unbuildable : BackendError :=
  .downstream "builder error"

/-- What a call returns, given what became of its request. -/
def outcome (call : Call) (url : Url) : Delivery → Except BackendError call.Reply
  | .unreachable => .error (unreachable url)
  | .reply status body =>
    if Http.isSuccess status then
      match readReply call body with
      | some reply => .ok reply
      | none => .error unreadableReply
    else .error (apiError status body)

/-- Makes a call over a transport. -/
def exchange (client : Client) (transport : Transport) (call : Call) :
    StateM (List Outgoing) (Except BackendError call.Reply) := do
  match client.request? call with
  | none => return .error unbuildable
  | some request =>
    let delivery ← transport.send request
    return outcome call request.url delivery

/-- The backend of a client that sends its requests over a transport. -/
def service (client : Client) (transport : Transport) : Service := fun call =>
  (Id.run ((client.exchange transport call).run [])).1

/-- A call that has a request sends it, and nothing else. -/
theorem exchange_of_request {client : Client} {call : Call} {request : Outgoing}
    (h : client.request? call = some request) (transport : Transport) (earlier : List Outgoing) :
    Id.run ((client.exchange transport call).run earlier) =
      (outcome call request.url (transport request), earlier ++ [request]) := by
  rw [exchange, h]
  rfl

theorem service_of_request {client : Client} {call : Call} {request : Outgoing}
    (h : client.request? call = some request) (transport : Transport) :
    client.service transport call = outcome call request.url (transport request) :=
  congrArg Prod.fst (exchange_of_request h transport [])

theorem service_of_unbuildable {client : Client} {call : Call} (h : client.request? call = none)
    (transport : Transport) : client.service transport call = .error unbuildable := by
  rw [service, exchange, h]
  rfl

end Client

end SearchGateway.Backend
