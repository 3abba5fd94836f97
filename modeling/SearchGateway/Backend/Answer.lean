/-
  SearchGateway.Backend.Answer

  The answer to query text: the objects of a response with the wanted properties
  only, and the cost points of copying them.
-/
import SearchGateway.Backend.Response
import SearchGateway.Query.Collection
import SearchGateway.Query.Cost

namespace SearchGateway.Backend

open SearchGateway.Json (Value)
open SearchGateway.Query (Collection Cost Charge)

/-- Writes the properties of an item over an object that holds its id; a property that the item
    lacks is null. -/
def Item.select (item : Item) (properties : List String) : Value :=
  .object <| properties.foldl
    (fun members name =>
      Json.insertMember name ((item.properties.lookup name).getD .null) members)
    [("id", .string item.id)]

/-- The charges for copying some properties of an item. -/
def Item.charges (item : Item) (properties : List String) : List Charge :=
  .object :: properties.map fun name => .property (item.isPopulated name)

/-- The selected items of a response, in order. -/
def SearchResponse.select (response : SearchResponse) (properties : List String) : List Value :=
  response.results.map fun item => item.select properties

/-- The cost of a search with the items that it returned. -/
def SearchResponse.cost (response : SearchResponse) (properties : List String) : Cost :=
  (Cost.zero.charge .search).chargeAll <|
    response.results.flatMap fun item => item.charges properties

/-- The answer to query text. -/
structure Answer where
  collection : Collection
  items : List Value
  total : Nat
  cost : Cost
  deriving Repr

namespace Answer

/-- Makes the answer from a response.  The total is the number of items where the response names
    none. -/
def ofResponse (collection : Collection) (properties : List String) (response : SearchResponse) :
    Answer where
  collection := collection
  items := response.select properties
  total := response.total.getD response.results.length
  cost := response.cost properties

/-- The items and the total under the identifier of the collection. -/
def data (answer : Answer) : Value :=
  .object [(answer.collection.id,
    .object [("items", .array answer.items), ("total", .ofNat answer.total)])]

end Answer

end SearchGateway.Backend
