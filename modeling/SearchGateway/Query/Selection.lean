/-
  SearchGateway.Query.Selection

  The collection that query text names and the properties that it selects.
-/
import SearchGateway.Text.Scan
import SearchGateway.Query.Error

namespace SearchGateway.Query

open SearchGateway.Text

/-- The collection that the first matching word of a text names. -/
def detectCollection (raw : String) : Except QueryError Collection :=
  match (words raw.toList).findSome? fun word => Collection.ofId? (String.ofList word) with
  | some collection => .ok collection
  | none => .error .missingCollection

/-- The body of a selection of items that starts here. -/
def selectionHere? (cs : List Char) : Option (List Char) := do
  let rest ← after? "items".toList cs
  let (body, _) ← enclosed? '\x7b' '\x7d' (dropSpace rest)
  return body

/-- The properties that the first selection of items names, without `id`; none when there is no
    selection or it names nothing else. -/
def selectedProperties? (raw : String) : Option (List String) :=
  match firstMatchOutsideWord selectionHere? false raw.toList with
  | none => none
  | some body =>
    let names := ((words body).map String.ofList).filter (· != "id")
    if names.isEmpty then none else some names

end SearchGateway.Query
