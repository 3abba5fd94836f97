/-
  SearchGateway.Query.Request

  The search request that is sent to the backend, and the body in which a caller
  asks for one.  A request is written as compact JSON with its members in a fixed
  order; absent and empty parts are left out.
-/
import SearchGateway.Query.Predicate

namespace SearchGateway.Query

open SearchGateway.Json (Value)

/-- Predicates that must all hold. -/
structure FilterGroup where
  filters : List Predicate
  deriving DecidableEq, Repr

namespace FilterGroup

/-- The number of predicates in a group. -/
def size (group : FilterGroup) : Nat :=
  group.filters.length

/-- The JSON object of a group. -/
def toJson (group : FilterGroup) : Value :=
  .object [("filters", .array (group.filters.map Predicate.toJson))]

/-- The record of a group. -/
def shape : Json.Shape FilterGroup where
  name := "FilterGroup"
  fields := [
    .optional "filters" (Json.list Predicate.read) fun filters _ => ⟨filters⟩]
  initial := ⟨[]⟩

end FilterGroup

/-- The number of predicates in some groups. -/
def totalFilters (groups : List FilterGroup) : Nat :=
  groups.foldr (fun group total => group.size + total) 0

/-- A search request: free text, groups of which one has to hold, the properties that are wanted, a
    page size and a page cursor. -/
structure SearchRequest where
  query : Option String
  filterGroups : List FilterGroup
  properties : List String
  limit : Int
  after : Option String
  deriving DecidableEq, Repr

namespace SearchRequest

/-- The number of predicates in a request. -/
def totalFilters (request : SearchRequest) : Nat :=
  Query.totalFilters request.filterGroups

/-- A member of a request that is left out when its list is empty. -/
def unlessEmpty (key : String) (items : List Value) : List (String × Value) :=
  if items.isEmpty then [] else [(key, .array items)]

/-- The JSON object of a request. -/
def toJson (request : SearchRequest) : Value :=
  .object <|
    (request.query.map fun text => ("query", Value.string text)).toList
      ++ unlessEmpty "filterGroups" (request.filterGroups.map FilterGroup.toJson)
      ++ unlessEmpty "properties" (request.properties.map .string)
      ++ [("limit", .ofInt request.limit)]
      ++ (request.after.map fun cursor => ("after", Value.string cursor)).toList

/-- The text in which a request is sent. -/
def wire (request : SearchRequest) : String :=
  request.toJson.print

/-- The record of a request. -/
def shape : Json.Shape SearchRequest where
  name := "SearchRequest"
  fields := [
    .optional "query" (fun _ => Json.optional Json.string)
      fun query request => { request with query },
    .optional "filterGroups" (Json.list FilterGroup.shape.read)
      fun filterGroups request => { request with filterGroups },
    .optional "properties" (Json.list fun _ => Json.string)
      fun properties request => { request with properties },
    .mandatory "limit" (fun _ => Json.int64) fun limit request => { request with limit },
    .optional "after" (fun _ => Json.optional Json.string)
      fun after request => { request with after }]
  initial := ⟨none, [], [], 0, none⟩

/-- Reads a request from its text. -/
def parse (bytes : List UInt8) : Except Json.Fault SearchRequest :=
  Json.read shape.read bytes

end SearchRequest

/-- What a caller may ask for in a structured search; every part may be left out. -/
structure SearchBody where
  filterGroups : Option (List FilterGroup) := none
  query : Option String := none
  limit : Option Int := none
  properties : Option (List String) := none
  after : Option String := none
  deriving DecidableEq, Repr

namespace SearchBody

/-- The record of a search body. -/
def shape : Json.Shape SearchBody where
  name := "SearchRequestInput"
  fields := [
    .optional "filterGroups" (fun depth => Json.optional (Json.list FilterGroup.shape.read depth))
      fun filterGroups body => { body with filterGroups },
    .optional "query" (fun _ => Json.optional Json.string)
      fun query body => { body with query },
    .optional "limit" (fun _ => Json.optional Json.int64)
      fun limit body => { body with limit },
    .optional "properties" (fun depth => Json.optional (Json.list (fun _ => Json.string) depth))
      fun properties body => { body with properties },
    .optional "after" (fun _ => Json.optional Json.string)
      fun after body => { body with after }]
  initial := {}

/-- Reads a search body from its text. -/
def parse (bytes : List UInt8) : Except Json.Fault SearchBody :=
  Json.read shape.read bytes

end SearchBody

end SearchGateway.Query
