/-
  SearchGateway.Http.Message

  Requests that the gateway receives and responses that it gives.
-/
import SearchGateway.Http.Header
import SearchGateway.Http.Target
import SearchGateway.Json.Value

namespace SearchGateway.Http

/-- The method of a request. -/
inductive Method where
  | get
  | head
  | post
  | put
  | patch
  | delete
  | options
  | other (name : String)
  deriving DecidableEq, Repr

namespace Method

/-- The name of a method. -/
def name : Method → String
  | get => "GET"
  | head => "HEAD"
  | post => "POST"
  | put => "PUT"
  | patch => "PATCH"
  | delete => "DELETE"
  | options => "OPTIONS"
  | other name => name

/-- The method with a name. -/
def ofName (name : String) : Method :=
  if name = "GET" then get
  else if name = "HEAD" then head
  else if name = "POST" then post
  else if name = "PUT" then put
  else if name = "PATCH" then patch
  else if name = "DELETE" then delete
  else if name = "OPTIONS" then options
  else other name

end Method

/-- A request to the gateway. -/
structure Request where
  method : Method
  /-- The target, as it is sent. -/
  target : List Char
  headers : Headers := []
  body : List UInt8 := []
  deriving Repr

namespace Request

/-- The path of a request, without query and fragment. -/
def path (request : Request) : List Char :=
  Target.path request.target

end Request

/-- The content of a response. -/
inductive Content where
  | empty
  | text (text : String)
  | json (value : Json.Value)
  deriving Repr

namespace Content

/-- The type of some content; no content has none. -/
def type? : Content → Option String
  | empty => none
  | text _ => some "text/plain; charset=utf-8"
  | json _ => some "application/json"

/-- The text of some content; JSON is written without blanks. -/
def written : Content → String
  | empty => ""
  | text s => s
  | json value => value.print

/-- The number of bytes of some content. -/
def length (content : Content) : Nat :=
  (Text.Utf8.ofString content.written).length

end Content

/-- A response of the gateway. -/
structure Response where
  status : Nat
  content : Content := .empty
  /-- Whether the content is described and left out. -/
  headOnly : Bool := false
  /-- The headers besides those that describe the content. -/
  headers : Headers := []
  deriving Repr

namespace Response

/-- The value of a header of a response.  Content that is left out is described all the same. -/
def header? (response : Response) (name : String) : Option String :=
  if name = "content-type" then response.content.type?
  else if name = "content-length" then
    some (String.ofList (Nat.toDigits 10 response.content.length))
  else response.headers.get? name

/-- The content that is sent. -/
def sent (response : Response) : Content :=
  if response.headOnly then .empty else response.content

/-- Adds headers to a response. -/
def withHeaders (response : Response) (headers : Headers) : Response :=
  { response with headers := response.headers ++ headers }

/-- A response of JSON. -/
def ofJson (status : Nat) (value : Json.Value) : Response where
  status := status
  content := .json value

/-- A response of plain text. -/
def ofText (status : Nat) (text : String) : Response where
  status := status
  content := .text text

/-- A response without content. -/
def bare (status : Nat) : Response where
  status := status

end Response

end SearchGateway.Http
