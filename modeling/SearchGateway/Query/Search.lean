/-
  SearchGateway.Query.Search

  The two ways to a bounded search: translating query text and validating a
  structured body.  Both end in a collection and a request within the limits.
-/
import SearchGateway.Query.Clause
import SearchGateway.Query.Pagination
import SearchGateway.Query.Selection
import SearchGateway.Query.Request

namespace SearchGateway.Query

/-- A request bound to its collection. -/
structure Search where
  collection : Collection
  request : SearchRequest
  deriving DecidableEq, Repr

/-! ## Limits -/

/-- Rejects the first group with too many filters; `index` is the index of the first group given. -/
def checkGroups (index : Nat) : List FilterGroup → Except QueryError Unit
  | [] => .ok ()
  | group :: groups =>
    if Limits.filtersPerGroup.allows group.size then checkGroups (index + 1) groups
    else .error (.tooManyFiltersInGroup index group.size Limits.filtersPerGroup.max)

/-- Rejects groups beyond the hard caps: too many groups, then too many filters in one of them, then
    too many filters in all. -/
def checkLimits (groups : List FilterGroup) : Except QueryError Unit :=
  if !Limits.filterGroups.allows groups.length then
    .error (.tooManyFilterGroups groups.length Limits.filterGroups.max)
  else
    match checkGroups 0 groups with
    | .error e => .error e
    | .ok () =>
      if Limits.totalFilters.allows (totalFilters groups) then .ok ()
      else .error (.tooManyTotalFilters (totalFilters groups) Limits.totalFilters.max)

/-! ## Query text -/

/-- The request of some predicates: they form one group, and no predicates form none. -/
def assemble (predicates : List Predicate) (properties : List String) (page : Pagination) :
    SearchRequest where
  query := none
  filterGroups := if predicates.isEmpty then [] else [⟨predicates⟩]
  properties := properties
  limit := page.limit
  after := page.after

/-- The search that query text asks for. -/
def translate (raw : String) : Except QueryError Search :=
  match detectCollection raw with
  | .error e => .error e
  | .ok collection =>
    let request := assemble (extract raw)
      ((selectedProperties? raw).getD collection.defaultProperties) (.ofText raw)
    match checkLimits request.filterGroups with
    | .error e => .error e
    | .ok () => .ok ⟨collection, request⟩

/-! ## Structured bodies -/

/-- The collection that an endpoint names. -/
def resolveCollection (endpoint : String) : Except QueryError Collection :=
  match Collection.ofId? endpoint with
  | some collection => .ok collection
  | none => .error (.unsupportedEndpoint endpoint)

/-- The request of a body.  Free text stands alone, so filters, properties and cursor are dropped
    beside it; an empty text counts as none. -/
def SearchBody.toRequest (body : SearchBody) (collection : Collection) : SearchRequest :=
  let limit := Limits.pageSize.apply (body.limit.getD Limits.defaultPageSize)
  match body.query.filter (· != "") with
  | some text => ⟨some text, [], [], limit, none⟩
  | none =>
    ⟨none, body.filterGroups.getD [],
      (body.properties.filter (!·.isEmpty)).getD collection.defaultProperties, limit, body.after⟩

/-- The search that a structured body asks for. -/
def validate (endpoint : String) (body : SearchBody) : Except QueryError Search :=
  match resolveCollection endpoint with
  | .error e => .error e
  | .ok collection =>
    match checkLimits (body.filterGroups.getD []) with
    | .error e => .error e
    | .ok () => .ok ⟨collection, body.toRequest collection⟩

end SearchGateway.Query
