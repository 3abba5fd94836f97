/-
  SearchGateway.Gateway.Body

  What the bodies of requests hold: a structured search, query text, or any JSON.
-/
import SearchGateway.Gateway.Error
import SearchGateway.Http.MediaType
import SearchGateway.Http.Message

namespace SearchGateway.Gateway

open SearchGateway.Http (MediaType Request Response)
open SearchGateway.Query (Search SearchBody)

/-- The largest body that is read. -/
def maxBodyBytes : Nat := 2097152

/-- Whether a body is too large to be read. -/
def isTooLarge (body : List UInt8) : Bool :=
  maxBodyBytes < body.length

/-- The response to a body that is too large. -/
def tooLargeResponse : Response :=
  .ofText 413 "Failed to buffer the request body: length limit exceeded"

/-! ## Structured searches -/

/-- A tab, line feed, form feed, carriage return or space. -/
def isAsciiSpace (b : UInt8) : Bool :=
  b == 0x09 || b == 0x0A || b == 0x0C || b == 0x0D || b == 0x20

/-- The fault of a body, as an error; its line and column are left out. -/
def invalidBody (fault : Json.Fault) : GatewayError :=
  .invalidBody fault.message

/-- Reads the body of a structured search; a body of whitespace asks for nothing in particular. -/
def parseSearchBody (body : List UInt8) : Except GatewayError SearchBody :=
  if body.all isAsciiSpace then .ok {}
  else (SearchBody.parse body).mapError invalidBody

/-- The search of an endpoint and a body.  The endpoint is looked at before the body. -/
def validateBody (endpoint : String) (body : List UInt8) : Except GatewayError Search :=
  match Query.resolveCollection endpoint with
  | .error e => .error (.query e)
  | .ok _ =>
    match parseSearchBody body with
    | .error e => .error e
    | .ok searchBody => (Query.validate endpoint searchBody).mapError .query

/-! ## Query text -/

/-- A request in query text.  The bindings of its variables are accepted and have no effect. -/
structure TextQuery where
  query : String := ""
  bindings : Option Json.Value := none
  deriving Repr

namespace TextQuery

/-- The record of a request in query text. -/
def shape : Json.Shape TextQuery where
  name := "GraphqlRequest"
  fields := [
    .optional "query" (fun _ => Json.string) fun query request => { request with query },
    .optional "variables" (fun depth => Json.optional (Json.value depth))
      fun bindings request => { request with bindings }]
  initial := {}

/-- Reads a request in query text. -/
def parse (body : List UInt8) : Except GatewayError TextQuery :=
  (Json.read shape.read body).mapError invalidBody

end TextQuery

/-- The search that the query text of a body asks for. -/
def translateBody (body : List UInt8) : Except GatewayError Search :=
  match TextQuery.parse body with
  | .error e => .error e
  | .ok request => (Query.translate request.query).mapError .query

/-! ## Any JSON -/

/-- Whether a request says that its body is JSON. -/
def saysJson (request : Request) : Bool :=
  match request.headers.get? "content-type" with
  | none => false
  | some text => (MediaType.ofText? text).any MediaType.isJson

/-- Reads a body of any JSON, or gives the response that refuses it, in which the line and column of
    a fault are left out.  What follows the value is not looked at. -/
def readJson (request : Request) : Except Response Json.Value :=
  if !saysJson request then
    .error (.ofText 415 "Expected request with `Content-Type: application/json`")
  else if isTooLarge request.body then .error tooLargeResponse
  else
    (Json.readPrefix Json.value request.body).mapError fun fault =>
      .ofText 400 ("Failed to parse the request body as JSON: " ++ fault.located)

end SearchGateway.Gateway
