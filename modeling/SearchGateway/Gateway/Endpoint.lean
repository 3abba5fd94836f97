/-
  SearchGateway.Gateway.Endpoint

  What each route of the gateway does.
-/
import SearchGateway.Backend.Answer
import SearchGateway.Gateway.Body
import SearchGateway.Gateway.Plan
import SearchGateway.Gateway.Route
import SearchGateway.Gateway.Timestamp

namespace SearchGateway.Gateway

open SearchGateway.Backend (Answer BackendError SearchResponse)
open SearchGateway.Http (Request Response)
open SearchGateway.Json (Value)
open SearchGateway.Query (Collection Cost Search)

/-- What a response may tell about the server. -/
structure Status where
  port : Nat
  configured : Bool
  uptimeSecs : Nat
  now : Timestamp
  deriving Repr

/-- The version of the gateway. -/
def version : String := "0.1.0"

/-! ## Index and health -/

/-- The overview of the routes. -/
def indexResponse : Response :=
  .ofJson 200 <| .object [
    ("name", .string "crmgate"),
    ("version", .string version),
    ("endpoints", .object [
      ("health", .string "GET /health"),
      ("search", .string "POST /api/search/:collection"),
      ("graphql", .string "POST /graphql"),
      ("crm_list", .string "GET /api/hubspot/:collection"),
      ("crm_create", .string "POST /api/hubspot/:collection"),
      ("crm_update", .string "PATCH /api/hubspot/:collection/:id"),
      ("crm_delete", .string "DELETE /api/hubspot/:collection/:id"),
      ("webhook", .string "POST /webhooks/:source"),
      ("webhook_url", .string "GET /webhooks/url/:source")]),
    ("collections", .strings Collection.identifiers)]

/-- The state of the server. -/
def healthResponse (status : Status) : Response :=
  .ofJson 200 <| .object [
    ("status", .string "ok"),
    ("version", .string version),
    ("uptime_secs", .ofNat status.uptimeSecs),
    ("crm_configured", .bool status.configured)]

/-! ## Structured search -/

/-- Where the search interface is described. -/
def searchDocumentation : String :=
  "https://developers.hubspot.com/docs/api/crm/search"

/-- The response to a search that fails. -/
def searchFailure (endpoint : String) (error : GatewayError) : Response :=
  .ofJson error.status <| .object <|
    [("error", .string error.message),
      ("code", .string error.code),
      ("endpoint", .string endpoint),
      ("documentation", .string searchDocumentation)]
      ++ (error.supportedEndpoints.map fun names => ("supported_endpoints", Value.strings names)).toList

/-- The response to a search that succeeds. -/
def searchSuccess (endpoint : String) (search : Search) (response : SearchResponse) : Response :=
  .ofJson 200 <| .object [
    ("success", .bool true),
    ("data", response.toJson),
    ("endpoint", .string endpoint),
    ("request_body_size", .ofNat (Text.Utf8.ofString search.request.wire).length),
    ("rate_limit_info", Query.Limits.toJson)]

/-- Searches a collection by a structured body. -/
def searchPlan (collection : List Char) (body : List UInt8) : Plan :=
  .need (parameter "collection" collection) fun endpoint =>
    if isTooLarge body then .answer tooLargeResponse
    else
      match validateBody endpoint body with
      | .error e => .answer (searchFailure endpoint e)
      | .ok search =>
        .ask (.search search.collection search.request) fun
          | .error e => searchFailure endpoint (.backend e)
          | .ok response => searchSuccess endpoint search response

/-! ## Query text -/

/-- The part of a response that tells the cost. -/
def costExtension (cost : Cost) : String × Value :=
  ("extensions", .object [("query_complexity", cost.toJson)])

/-- The response to query text that fails; it costs nothing. -/
def graphqlFailure (error : GatewayError) : Response :=
  .ofJson 200 <| .object [
    ("errors", .array [.object [
      ("message", .string error.message),
      ("extensions", .object [("code", .string error.code)])]]),
    costExtension .zero]

/-- The response to query text that succeeds. -/
def graphqlSuccess (answer : Answer) : Response :=
  .ofJson 200 <| .object [("data", answer.data), costExtension answer.cost]

/-- Searches by query text. -/
def graphqlPlan (body : List UInt8) : Plan :=
  if isTooLarge body then .answer tooLargeResponse
  else
    match translateBody body with
    | .error e => .answer (graphqlFailure e)
    | .ok search =>
      .ask (.search search.collection search.request) fun
        | .error e => graphqlFailure (.backend e)
        | .ok response =>
          graphqlSuccess (.ofResponse search.collection search.request.properties response)

/-! ## Objects -/

/-- The response to a call for objects that fails. -/
def objectFailure (error : BackendError) : Response :=
  let error := GatewayError.backend error
  .ofJson error.status error.toJson

/-- The response to a call for objects that succeeds. -/
def objectSuccess (data : Value) : Response :=
  .ofJson 200 (.object [("success", .bool true), ("data", data)])

/-- The response to a call for objects, by its outcome. -/
def objectResponse : Except BackendError Value → Response
  | .error e => objectFailure e
  | .ok data => objectSuccess data

/-- Lists the objects of a collection. -/
def listPlan (collection : List Char) : Plan :=
  .need (parameter "collection" collection) fun collection =>
    .ask (.list collection) objectResponse

/-- Creates an object. -/
def createPlan (collection : List Char) (request : Request) : Plan :=
  .need (parameter "collection" collection) fun collection =>
    .need (readJson request) fun body =>
      .ask (.create collection body) objectResponse

/-- Updates an object. -/
def updatePlan (collection id : List Char) (request : Request) : Plan :=
  .need (parameter "collection" collection) fun collection =>
    .need (parameter "id" id) fun id =>
      .need (readJson request) fun body =>
        .ask (.update collection id body) objectResponse

/-- Deletes an object. -/
def deletePlan (collection id : List Char) : Plan :=
  .need (parameter "collection" collection) fun collection =>
    .need (parameter "id" id) fun id =>
      .ask (.delete collection id) fun
        | .error e => objectFailure e
        | .ok () => objectSuccess (.object [("deleted", .bool true), ("id", .string id)])

/-! ## Webhooks -/

/-- The address of a webhook. -/
def webhookAddress (port : Nat) (source : String) : String :=
  "http://localhost:" ++ String.ofList (Nat.toDigits 10 port) ++ "/webhooks/" ++ source

/-- Takes a delivery. -/
def webhookPlan (source : List Char) (status : Status) (body : List UInt8) : Plan :=
  .need (parameter "source" source) fun source =>
    if isTooLarge body then .answer tooLargeResponse
    else
      .answer <| .ofJson 200 <| .object [
        ("success", .bool true),
        ("received", .string status.now.text),
        ("source", .string source)]

/-- Tells the address of a webhook. -/
def webhookUrlPlan (source : List Char) (status : Status) : Plan :=
  .need (parameter "source" source) fun source =>
    .answer <| .ofJson 200 <| .object [
      ("success", .bool true),
      ("webhook_url", .string (webhookAddress status.port source)),
      ("source", .string source)]

/-! ## All routes -/

/-- The response to a method that a route does not have. -/
def methodNotAllowed (route : Route) : Response :=
  { Response.bare 405 with headers := [("allow", route.allow)] }

/-- What a route does for a request. -/
def Route.plan (route : Route) (status : Status) (request : Request) : Plan :=
  match route, request.method with
  | .index, .get | .index, .head => .answer indexResponse
  | .health, .get | .health, .head => .answer (healthResponse status)
  | .graphql, .post => graphqlPlan request.body
  | .search collection, .post => searchPlan collection request.body
  | .objects collection, .get | .objects collection, .head => listPlan collection
  | .objects collection, .post => createPlan collection request
  | .object collection id, .patch => updatePlan collection id request
  | .object collection id, .delete => deletePlan collection id
  | .webhook source, .post => webhookPlan source status request.body
  | .webhookUrl source, .get | .webhookUrl source, .head => webhookUrlPlan source status
  | route, _ => .answer (methodNotAllowed route)

end SearchGateway.Gateway
