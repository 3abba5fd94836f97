/-
  SearchGateway.Proofs.Resubmission

  A search that has been accepted may be submitted again: its request, read as a
  structured body and validated for its collection, gives the same search.  Query
  text and structured bodies therefore lead to the same set of searches, and
  validating is idempotent.
-/
import SearchGateway.CommandLine.Run
import SearchGateway.Proofs.Bounds
import SearchGateway.Proofs.RequestText

namespace SearchGateway.Query

open SearchGateway.Json (Reads Value)

/-! ## Requests as bodies -/

/-- The parts of a list that a body carries: none for an empty list. -/
def nonEmpty {α : Type} (xs : List α) : Option (List α) :=
  if xs.isEmpty then none else some xs

@[simp] theorem getD_nonEmpty {α : Type} (xs : List α) : (nonEmpty xs).getD [] = xs := by
  cases xs <;> rfl

/-- The body that asks for exactly a request. -/
def SearchRequest.toBody (request : SearchRequest) : SearchBody where
  filterGroups := nonEmpty request.filterGroups
  query := request.query
  limit := some request.limit
  properties := nonEmpty request.properties
  after := request.after

theorem head?_ofInt (n : Int) : (Value.ofInt n).text.head? ≠ some 'n' := by
  obtain ⟨c, cs, hcs, hc⟩ := Json.head_numberText (.int n)
  rw [Value.ofInt, Value.text, hcs, List.head?_cons, ne_eq, Option.some.injEq]
  rintro rfl
  rcases hc with hc | hc
  · exact absurd hc (by decide)
  · exact absurd hc (by decide)

/-- A value that spells a request is read as the body that asks for it. -/
theorem SearchRequest.reads_toBody {request : SearchRequest} {v : Value}
    (h : request.SpelledBy v) (hlimit : Json.IsInt64 request.limit) (depth : Nat) :
    Reads (SearchBody.shape.read (depth + 6)) v request.toBody := by
  obtain ⟨groups, ms, hgroups, rfl, hperm⟩ := h
  -- a body has the fields of a request, but all of them are optional and none has a default
  have hquery : ∀ text ∈ request.query, SearchBody.shape.Sets (depth + 5) ("query", .string text)
      fun body => { body with query := some text } := fun text _ =>
    Json.Shape.sets_optional (fun _ => Json.optional Json.string)
      (fun query (body : SearchBody) => { body with query }) rfl
      ((Json.reads_string text).optional (Json.head?_string text))
  have hfilterGroups : SearchBody.shape.Sets (depth + 5) ("filterGroups", .array groups)
      fun body => { body with filterGroups := some request.filterGroups } :=
    Json.Shape.sets_optional
      (fun depth => Json.optional (Json.list FilterGroup.shape.read depth))
      (fun filterGroups (body : SearchBody) => { body with filterGroups }) rfl
      ((reads_groups hgroups depth).optional (Json.head?_array groups))
  have hproperties : SearchBody.shape.Sets (depth + 5)
      ("properties", .array (request.properties.map .string))
      fun body => { body with properties := some request.properties } :=
    Json.Shape.sets_optional
      (fun depth => Json.optional (Json.list (fun _ => Json.string) depth))
      (fun properties (body : SearchBody) => { body with properties }) rfl
      ((Json.reads_strings (depth + 4) request.properties).optional (Json.head?_array _))
  have hlimit' : SearchBody.shape.Sets (depth + 5) ("limit", .ofInt request.limit)
      fun body => { body with limit := some request.limit } :=
    Json.Shape.sets_optional (fun _ => Json.optional Json.int64)
      (fun limit (body : SearchBody) => { body with limit }) rfl
      ((Json.reads_int64 hlimit).optional (head?_ofInt request.limit))
  have hafter : ∀ cursor ∈ request.after, SearchBody.shape.Sets (depth + 5)
      ("after", .string cursor) fun body => { body with after := some cursor } := fun cursor _ =>
    Json.Shape.sets_optional (fun _ => Json.optional Json.string)
      (fun after (body : SearchBody) => { body with after }) rfl
      ((Json.reads_string cursor).optional (Json.head?_string cursor))
  have hsets := request.sets_membersWith hquery hfilterGroups hproperties hlimit' hafter
  have hread := Reads.record_perm hsets (request.nodup_membersWith groups) ?missing ?commute hperm
  case missing =>
    intro field hfield hrequired
    simp only [SearchBody.shape, List.mem_cons, List.not_mem_nil, or_false] at hfield
    -- a body requires no field
    rcases hfield with rfl | rfl | rfl | rfl | rfl <;> exact absurd hrequired (by decide)
  case commute =>
    cases request.query <;> cases groups <;> cases request.properties <;> cases request.after <;>
      simp
  -- a list that is left out is read as none, and so it is in `toBody`
  obtain ⟨query, filterGroups, properties, limit, after⟩ := request
  cases query <;> cases hgroups <;> cases properties <;> cases after <;> exact hread

/-! ## Submitting again -/

/-- A bounded request is what its own body asks for. -/
theorem SearchRequest.Bounded.toRequest_toBody {request : SearchRequest} (h : request.Bounded)
    (collection : Collection) : request.toBody.toRequest collection = request := by
  have hlimit : request.toBody.pageSize = request.limit := SoftCap.apply_eq_self h.limit
  -- a text that is not empty puts the other parts aside, and a free-text search has none of them
  rcases h.form with ⟨⟨text, hquery, hne⟩, hgroups, hproperties, hafter⟩ | ⟨hquery, hproperties⟩
  · have htext : request.toBody.query.filter (· != "") = some text := by
      rw [SearchRequest.toBody, hquery, Option.filter_some, if_pos (bne_iff_ne.mpr hne)]
    rw [SearchBody.toRequest_freeText htext, hlimit, ← hquery, ← hgroups, ← hproperties, ← hafter]
  · have htext : request.toBody.query.filter (· != "") = none := by
      rw [SearchRequest.toBody, hquery, Option.filter_none]
    -- the default properties are not taken, because a structured search names at least one
    have hkept : (request.toBody.properties.filter (!·.isEmpty)).getD collection.defaultProperties
        = request.properties := by
      cases hnames : request.properties with
      | nil => exact absurd hnames hproperties
      | cons name names =>
        simp only [SearchRequest.toBody, hnames]
        rfl
    have hgroups : request.toBody.filterGroups.getD [] = request.filterGroups :=
      getD_nonEmpty request.filterGroups
    rw [SearchBody.toRequest_structured htext, hlimit, hkept, hgroups, ← hquery]
    rfl

/-- A bounded request is validated as it stands. -/
theorem SearchRequest.Bounded.validate_toBody {request : SearchRequest} (h : request.Bounded)
    (collection : Collection) :
    validate collection.id request.toBody = .ok ⟨collection, request⟩ := by
  refine validate_eq_ok_iff.mpr ⟨?_, ?_, (h.toRequest_toBody collection).symm⟩
  · simp only [resolveCollection, Collection.ofId?_id]
  · simp only [SearchRequest.toBody, getD_nonEmpty, h.checkLimits]

/-- A text comes back as a search: as a structured body for the collection of the search it is
    accepted and gives the search. -/
def Search.ComesBackFrom (search : Search) (text : String) : Prop :=
  ∃ body, SearchBody.parse (Text.Utf8.ofString text) = .ok body ∧
    validate search.collection.id body = .ok search

/-- The text of a request with the keys of every object sorted. -/
def SearchRequest.sortedWire (request : SearchRequest) : String :=
  request.toJson.sorted.print

/-- A bounded search comes back from every text that lists the members of its request in some
    order. -/
theorem Search.comesBackFrom_spelled {search : Search} {v : Value}
    (hbounded : search.request.Bounded) (hlimit : Json.IsInt64 search.request.limit)
    (h : search.request.SpelledBy v) : search.ComesBackFrom v.print :=
  ⟨search.request.toBody, Json.read_print (SearchRequest.reads_toBody h hlimit 121),
    hbounded.validate_toBody search.collection⟩

/-- What is shown of an accepted search holds its request with sorted keys. -/
theorem sorted_searchJson (search : Search) :
    (CommandLine.searchJson search).sorted = .object [
      ("data", .object [
        ("collection", .string search.collection.id),
        ("request", search.request.toJson.sorted)]),
      ("status", .string "ok")] := by
  have hdata : ("data" : String) < "status" := by decide
  have hrequest : ¬("request" : String) < "collection" := by decide
  simp [CommandLine.searchJson, Value.sorted, Json.sortedMembers, Json.sortMembers,
    Json.insertMember, hdata, hrequest]

/-- Every accepted search, from query text or from a structured body, comes back from the text of
    its request and from that text with sorted keys, which is the one shown on the command
    line. -/
theorem accepted_comesBackFrom_wire :
    (∀ raw search, translate raw = .ok search →
      search.ComesBackFrom search.request.wire ∧
        search.ComesBackFrom search.request.sortedWire) ∧
    (∀ endpoint body search, (∀ n ∈ body.limit, Json.IsInt64 n) →
      validate endpoint body = .ok search →
      search.ComesBackFrom search.request.wire ∧
        search.ComesBackFrom search.request.sortedWire) ∧
    ∀ search, CommandLine.line (CommandLine.searchJson search) = (Value.object [
        ("data", .object [
          ("collection", .string search.collection.id),
          ("request", search.request.toJson.sorted)]),
        ("status", .string "ok")]).print ++ "\n" := by
  refine ⟨fun raw search h => ?_, fun endpoint body search hbody h => ?_, fun search => ?_⟩
  -- both ways give a bounded search, and a bounded search comes back from every spelling of it
  · have hbounded := translate_bounded h
    have hlimit := isInt64_of_translate h
    exact ⟨Search.comesBackFrom_spelled hbounded hlimit search.request.spelledBy_toJson,
      Search.comesBackFrom_spelled hbounded hlimit search.request.spelledBy_sorted⟩
  · have hbounded := validate_bounded h
    have hlimit := isInt64_of_validate hbody h
    exact ⟨Search.comesBackFrom_spelled hbounded hlimit search.request.spelledBy_toJson,
      Search.comesBackFrom_spelled hbounded hlimit search.request.spelledBy_sorted⟩
  · rw [CommandLine.line, sorted_searchJson]

/-- Query text with a token of each form. -/
def mixedText : String :=
  "\x7b deals(filter: \x7b name__eq: \"a\", stage__in: [\"x\", \"\"], amount__between: " ++
    "\x7b value: \"1\", highValue: \"2\" \x7d \x7d, limit: 500, offset: 040) " ++
    "\x7b items \x7b id amount \x7d \x7d \x7d"

/-- The search that the query text asks for. -/
def mixedSearch : Search where
  collection := .deals
  request := {
    query := none
    filterGroups := [⟨[⟨"name", .compare .equal "a"⟩, ⟨"amount", .between "1" "2"⟩,
      ⟨"stage", .member .inList ["x", ""]⟩]⟩]
    properties := ["amount"]
    limit := 200
    after := some "40" }

theorem accepted_comesBackFrom_wire_mixed :
    (translate mixedText = .ok mixedSearch ∧
      mixedSearch.ComesBackFrom mixedSearch.request.wire ∧
      mixedSearch.ComesBackFrom mixedSearch.request.sortedWire) ∧
    ∃ search, validate "notes" { query := some "a", limit := some (-3), after := some "b" }
        = .ok search ∧
      search.request.after = none ∧
      search.ComesBackFrom search.request.wire ∧
      search.ComesBackFrom search.request.sortedWire := by
  have htext : translate mixedText = .ok mixedSearch := by decide +kernel
  refine ⟨⟨htext, accepted_comesBackFrom_wire.1 mixedText mixedSearch htext⟩,
    ⟨.notes, some "a", [], [], -3, none⟩, rfl, rfl, ?_⟩
  exact accepted_comesBackFrom_wire.2.1 "notes"
    { query := some "a", limit := some (-3), after := some "b" } _ (by decide) rfl

end SearchGateway.Query
