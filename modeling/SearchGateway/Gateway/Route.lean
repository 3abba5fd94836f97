/-
  SearchGateway.Gateway.Route

  The routes of the gateway.  A route is found by the path of a request as it is
  sent; the parts that a path leaves open are unescaped afterwards.
-/
import SearchGateway.Http.Message
import SearchGateway.Text.Percent
import SearchGateway.Text.Scan

namespace SearchGateway.Gateway

open SearchGateway.Http (Method Response)

/-- A route, with the open parts of its path as they are sent. -/
inductive Route where
  | index
  | health
  /-- Searching by query text. -/
  | graphql
  /-- Searching a collection by a structured body. -/
  | search (collection : List Char)
  /-- The objects of a collection. -/
  | objects (collection : List Char)
  /-- One object of a collection. -/
  | object (collection id : List Char)
  /-- Delivering to a webhook. -/
  | webhook (source : List Char)
  /-- The address of a webhook. -/
  | webhookUrl (source : List Char)
  deriving DecidableEq, Repr

namespace Route

/-- The parts of a path that begins with a slash. -/
def parts? (path : List Char) : Option (List (List Char)) :=
  match path with
  | '/' :: rest => some (Text.split '/' rest)
  | _ => none

/-- The route of a path; the open part at the end of a path has at least one character. -/
def ofPath? (path : List Char) : Option Route := do
  let parts ← parts? path
  match parts.map String.ofList, parts with
  | [""], _ => some index
  | ["health"], _ => some health
  | ["graphql"], _ => some graphql
  | ["api", "search", _], [_, _, c] => if c.isEmpty then none else some (search c)
  | ["api", "hubspot", _], [_, _, c] => if c.isEmpty then none else some (objects c)
  | ["api", "hubspot", _, _], [_, _, c, i] => if i.isEmpty then none else some (object c i)
  | ["webhooks", _], [_, s] => if s.isEmpty then none else some (webhook s)
  | ["webhooks", "url", _], [_, _, s] => if s.isEmpty then none else some (webhookUrl s)
  | _, _ => none

/-- The methods of a route. -/
def methods : Route → List Method
  | index | health | webhookUrl _ => [.get, .head]
  | graphql | search _ | webhook _ => [.post]
  | objects _ => [.get, .head, .post]
  | object _ _ => [.patch, .delete]

/-- The methods of a route, as they are told to callers. -/
def allow (route : Route) : String :=
  ",".intercalate (route.methods.map Method.name)

end Route

/-! ## Open parts -/

/-- The response to an open part that is not text. -/
def badParameterResponse (name : String) : Response :=
  .ofText 400 ("Invalid URL: Invalid UTF-8 in `" ++ name ++ "`")

/-- The text of an open part of a path, or the response that refuses it. -/
def parameter (name : String) (part : List Char) : Except Response String :=
  match Text.Utf8.decode? (Text.Percent.decode (Text.Utf8.encode part)) with
  | some cs => .ok (String.ofList cs)
  | none => .error (badParameterResponse name)

end SearchGateway.Gateway
