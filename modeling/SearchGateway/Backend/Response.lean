/-
  SearchGateway.Backend.Response

  The answer of the search backend: objects with their properties, the size of the
  whole result and paging information.
-/
import SearchGateway.Json.Typed

namespace SearchGateway.Backend

open SearchGateway.Json (Value)

/-- An object of an answer.  Its properties are sorted by name and no name comes twice. -/
structure Item where
  id : String
  properties : List (String × Value)
  deriving Repr

namespace Item

/-- Whether a value is more than null and the empty text. -/
def isFilled : Option Value → Bool
  | none | some .null => false
  | some (.string s) => s != ""
  | some _ => true

/-- Whether an object has a value for a property. -/
def isPopulated (item : Item) (name : String) : Bool :=
  isFilled (item.properties.lookup name)

/-- The JSON object of an item. -/
def toJson (item : Item) : Value :=
  .object [("id", .string item.id), ("properties", .object item.properties)]

/-- The record of an item. -/
def shape : Json.Shape Item where
  name := "Item"
  fields := [
    .mandatory "id" (fun _ => Json.string) fun id item => { item with id },
    .optional "properties" Json.map fun properties item => { item with properties }]
  initial := ⟨"", []⟩

/-- Reads an item from its text. -/
def parse (bytes : List UInt8) : Except Json.Fault Item :=
  Json.read shape.read bytes

end Item

/-- The answer to a search. -/
structure SearchResponse where
  /-- The number of objects that match, on all pages. -/
  total : Option Nat := none
  results : List Item := []
  paging : Option Value := none
  deriving Repr

namespace SearchResponse

/-- The JSON object of an answer; what is not known is left out. -/
def toJson (response : SearchResponse) : Value :=
  .object <|
    (response.total.map fun n => ("total", Value.ofNat n)).toList
      ++ [("results", .array (response.results.map Item.toJson))]
      ++ (response.paging.map fun v => ("paging", v)).toList

/-- The record of an answer. -/
def shape : Json.Shape SearchResponse where
  name := "SearchResponse"
  fields := [
    .optional "total" (fun _ => Json.optional (Json.natural 64 "u64"))
      fun total response => { response with total },
    .optional "results" (Json.list Item.shape.read)
      fun results response => { response with results },
    .optional "paging" (fun depth => Json.optional (Json.value depth))
      fun paging response => { response with paging }]
  initial := {}

/-- Reads an answer from its text. -/
def parse (bytes : List UInt8) : Except Json.Fault SearchResponse :=
  Json.read shape.read bytes

end SearchResponse

end SearchGateway.Backend
