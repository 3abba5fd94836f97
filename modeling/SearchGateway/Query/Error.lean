/-
  SearchGateway.Query.Error

  Why a search is rejected before it reaches the backend.
-/
import SearchGateway.Query.Collection

namespace SearchGateway.Query

/-- Why a search is rejected. -/
inductive QueryError where
  /-- The named collection is not one of those that may be searched. -/
  | unsupportedEndpoint (endpoint : String)
  | tooManyFilterGroups (count max : Nat)
  | tooManyFiltersInGroup (group count max : Nat)
  | tooManyTotalFilters (count max : Nat)
  /-- The query text names no collection. -/
  | missingCollection
  deriving DecidableEq, Repr

namespace QueryError

/-- The decimal text of a count. -/
def countText (n : Nat) : String :=
  String.ofList (Nat.toDigits 10 n)

/-- A count beside the largest one allowed. -/
def countOfMax (count max : Nat) : String :=
  countText count ++ " (max " ++ countText max ++ ")"

/-- The stable code of an error. -/
def code : QueryError → String
  | unsupportedEndpoint _ => "CRM_QUERY_UNSUPPORTED_ENDPOINT"
  | tooManyFilterGroups _ _ => "CRM_QUERY_TOO_MANY_FILTER_GROUPS"
  | tooManyFiltersInGroup _ _ _ => "CRM_QUERY_TOO_MANY_FILTERS_IN_GROUP"
  | tooManyTotalFilters _ _ => "CRM_QUERY_TOO_MANY_TOTAL_FILTERS"
  | missingCollection => "CRM_QUERY_MISSING_COLLECTION"

/-- The wording of an error. -/
def message : QueryError → String
  | unsupportedEndpoint endpoint => "Unsupported endpoint '" ++ endpoint ++ "'"
  | tooManyFilterGroups count max => "Too many filter groups: " ++ countOfMax count max
  | tooManyFiltersInGroup group count max =>
    "Too many filters in group " ++ countText group ++ ": " ++ countOfMax count max
  | tooManyTotalFilters count max => "Too many total filters: " ++ countOfMax count max
  | missingCollection => "Query does not name a supported collection"

/-- The collections to show to the caller, where the error is about the collection. -/
def supportedEndpoints : QueryError → Option (List String)
  | unsupportedEndpoint _ | missingCollection => some Collection.identifiers
  | _ => none

end QueryError

end SearchGateway.Query
