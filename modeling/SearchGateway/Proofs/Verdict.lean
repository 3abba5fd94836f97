/-
  SearchGateway.Proofs.Verdict

  The verdict on a structured body.  Its rules stand in an order, and the first one
  that is broken decides: the endpoint, then the three caps on filters.  A body that
  breaks none of them is accepted, and then its limit and its text say which request
  it asks for.
-/
import SearchGateway.Proofs.Bounds

namespace SearchGateway.Query

/-! ## The rules -/

/-- The first cap that some groups break, as the error that reports it. -/
inductive Breach (groups : List FilterGroup) : QueryError → Prop
  | groups (count : 5 < groups.length) : Breach groups (.tooManyFilterGroups groups.length 5)
  /-- A group with too many filters is reported when no group before it has too many. -/
  | filters {index : Nat} {group : FilterGroup} (count : groups.length ≤ 5)
      (found : groups[index]? = some group) (size : 6 < group.size)
      (first : ∀ earlier ∈ groups.take index, earlier.size ≤ 6) :
      Breach groups (.tooManyFiltersInGroup index group.size 6)
  | total (count : groups.length ≤ 5) (sizes : ∀ group ∈ groups, group.size ≤ 6)
      (sum : 18 < totalFilters groups) :
      Breach groups (.tooManyTotalFilters (totalFilters groups) 18)

/-- Groups that break no cap. -/
structure WithinCaps (groups : List FilterGroup) : Prop where
  count : groups.length ≤ 5
  sizes : ∀ group ∈ groups, group.size ≤ 6
  sum : totalFilters groups ≤ 18

/-- The groups of a body; a body without the field has none. -/
def SearchBody.groups (body : SearchBody) : List FilterGroup :=
  body.filterGroups.getD []

/-- The request that an accepted body asks for. -/
inductive SearchBody.Asks (body : SearchBody) (collection : Collection) : SearchRequest → Prop
  /-- A text that is not empty is searched for alone. -/
  | freeText {text : String} (given : body.query = some text) (nonempty : text ≠ "") :
      Asks body collection ⟨some text, [], [], min (body.limit.getD 10) 200, none⟩
  | named {properties : List String} (silent : body.query.getD "" = "")
      (given : body.properties = some properties) (nonempty : properties ≠ []) :
      Asks body collection
        ⟨none, body.groups, properties, min (body.limit.getD 10) 200, body.after⟩
  | unnamed (silent : body.query.getD "" = "") (empty : body.properties.getD [] = []) :
      Asks body collection
        ⟨none, body.groups, collection.defaultProperties, min (body.limit.getD 10) 200, body.after⟩

/-- The verdict on a body that is submitted to an endpoint. -/
inductive Verdict (endpoint : String) (body : SearchBody) : Except QueryError Search → Prop
  | unsupported (unknown : endpoint ∉ Collection.identifiers) :
      Verdict endpoint body (.error (.unsupportedEndpoint endpoint))
  | breach {e : QueryError} (known : endpoint ∈ Collection.identifiers)
      (breaks : Breach body.groups e) : Verdict endpoint body (.error e)
  | accepted {search : Search} (known : search.collection.id = endpoint)
      (within : WithinCaps body.groups) (asks : body.Asks search.collection search.request) :
      Verdict endpoint body (.ok search)

/-! ## The endpoint -/

theorem resolveCollection_eq_ok_iff {endpoint : String} {collection : Collection} :
    resolveCollection endpoint = .ok collection ↔ collection.id = endpoint := by
  unfold resolveCollection
  constructor
  · intro h
    split at h
    · rename_i found hfound
      obtain rfl := Except.ok.inj h
      exact Collection.id_of_ofId? hfound
    · exact nomatch h
  · rintro rfl
    rw [Collection.ofId?_id]

/-- An endpoint that is no identifier is reported as it was given. -/
theorem resolveCollection_of_notMem {endpoint : String}
    (h : endpoint ∉ Collection.identifiers) :
    resolveCollection endpoint = .error (.unsupportedEndpoint endpoint) := by
  unfold resolveCollection
  cases hfound : Collection.ofId? endpoint with
  | none => rfl
  | some collection =>
    have hid := Collection.id_of_ofId? hfound
    exact absurd (hid ▸ List.mem_map_of_mem collection.mem_all) h

theorem exists_id_of_mem {endpoint : String} (h : endpoint ∈ Collection.identifiers) :
    ∃ collection : Collection, collection.id = endpoint := by
  obtain ⟨collection, -, hid⟩ := List.mem_map.mp h
  exact ⟨collection, hid⟩

/-! ## The caps -/

/-- The first group with too many filters is reported with its place among the groups. -/
theorem checkGroups_eq_error_iff {offset : Nat} {groups : List FilterGroup} {e : QueryError} :
    checkGroups offset groups = .error e ↔
      ∃ index group, groups[index]? = some group ∧ 6 < group.size ∧
        (∀ earlier ∈ groups.take index, earlier.size ≤ 6) ∧
        e = .tooManyFiltersInGroup (offset + index) group.size 6 := by
  induction groups generalizing offset with
  | nil => simp [checkGroups]
  | cons first groups ih =>
    rw [checkGroups]
    split
    · rename_i hallows
      have hfirst : first.size ≤ 6 := HardCap.allows_iff.mp hallows
      rw [ih]
      constructor
      · rintro ⟨index, group, hfound, hsize, hearlier, rfl⟩
        refine ⟨index + 1, group, hfound, hsize, ?_, ?_⟩
        · rw [List.take_succ_cons, List.forall_mem_cons]
          exact ⟨hfirst, hearlier⟩
        · rw [Nat.add_right_comm, Nat.add_assoc]
      · rintro ⟨index, group, hfound, hsize, hearlier, rfl⟩
        cases index with
        | zero =>
          -- the first group is allowed, so it is not the one that is reported
          obtain rfl := Option.some.inj hfound
          exact absurd hfirst (Nat.not_le_of_lt hsize)
        | succ index =>
          rw [List.take_succ_cons, List.forall_mem_cons] at hearlier
          refine ⟨index, group, hfound, hsize, hearlier.2, ?_⟩
          rw [Nat.add_right_comm, Nat.add_assoc]
    · rename_i hrejects
      have hfirst : 6 < first.size := Nat.lt_of_not_le fun hle =>
        hrejects (HardCap.allows_iff.mpr hle)
      constructor
      · intro h
        obtain rfl := Except.error.inj h
        exact ⟨0, first, rfl, hfirst, fun _ hmem => absurd hmem List.not_mem_nil, rfl⟩
      · rintro ⟨index, group, hfound, hsize, hearlier, rfl⟩
        cases index with
        | zero =>
          obtain rfl := Option.some.inj hfound
          rfl
        | succ index =>
          rw [List.take_succ_cons, List.forall_mem_cons] at hearlier
          exact absurd hearlier.1 (Nat.not_le_of_lt hfirst)

theorem checkLimits_eq_ok_iff_withinCaps {groups : List FilterGroup} :
    checkLimits groups = .ok () ↔ WithinCaps groups := by
  rw [checkLimits_eq_ok_iff]
  exact ⟨fun h => ⟨h.1, h.2.1, h.2.2⟩, fun h => ⟨h.count, h.sizes, h.sum⟩⟩

/-- A cap that is broken is reported when no cap before it is. -/
theorem Breach.checkLimits {groups : List FilterGroup} {e : QueryError} (h : Breach groups e) :
    checkLimits groups = .error e := by
  cases h with
  | groups count =>
    have hrejects : Limits.filterGroups.allows groups.length = false := by
      rw [← Bool.not_eq_true, HardCap.allows_iff]
      exact Nat.not_le_of_lt count
    rw [Query.checkLimits, hrejects]
    rfl
  | @filters index group count found size first =>
    have hallows : Limits.filterGroups.allows groups.length = true := HardCap.allows_iff.mpr count
    have hreport : checkGroups 0 groups = .error (.tooManyFiltersInGroup index group.size 6) := by
      rw [checkGroups_eq_error_iff]
      exact ⟨index, group, found, size, first, by rw [Nat.zero_add]⟩
    rw [Query.checkLimits, hallows, hreport]
    rfl
  | total count sizes sum =>
    have hallows : Limits.filterGroups.allows groups.length = true := HardCap.allows_iff.mpr count
    have hrejects : Limits.totalFilters.allows (totalFilters groups) = false := by
      rw [← Bool.not_eq_true, HardCap.allows_iff]
      exact Nat.not_le_of_lt sum
    rw [Query.checkLimits, hallows, (checkGroups_eq_ok_iff 0 groups).mpr sizes, hrejects]
    rfl

/-- Groups are within the caps or break one of them first. -/
theorem withinCaps_or_breach (groups : List FilterGroup) :
    WithinCaps groups ∨ ∃ e, Breach groups e := by
  by_cases hcount : groups.length ≤ 5
  · cases hgroups : checkGroups 0 groups with
    | error e =>
      obtain ⟨index, group, hfound, hsize, hfirst, -⟩ := checkGroups_eq_error_iff.mp hgroups
      exact .inr ⟨_, .filters hcount hfound hsize hfirst⟩
    | ok u =>
      have hsizes := (checkGroups_eq_ok_iff 0 groups).mp hgroups
      by_cases hsum : totalFilters groups ≤ 18
      · exact .inl ⟨hcount, hsizes, hsum⟩
      · exact .inr ⟨_, .total hcount hsizes (Nat.lt_of_not_le hsum)⟩
  · exact .inr ⟨_, .groups (Nat.lt_of_not_le hcount)⟩

/-! ## The request -/

theorem filter_query_of_silent {query : Option String} (h : query.getD "" = "") :
    query.filter (· != "") = none := by
  cases query with
  | none => rfl
  | some text =>
    obtain rfl : text = "" := h
    rfl

theorem filter_query_of_ne {text : String} (h : text ≠ "") :
    (some text).filter (· != "") = some text := by
  rw [Option.filter_some, if_pos (by simpa using h)]

/-- A body asks for the request that is made of it. -/
theorem SearchBody.asks_toRequest (body : SearchBody) (collection : Collection) :
    body.Asks collection (body.toRequest collection) := by
  by_cases hsilent : body.query.getD "" = ""
  · rw [toRequest_structured (filter_query_of_silent hsilent)]
    cases hproperties : body.properties with
    | none => exact .unnamed hsilent (by rw [hproperties]; rfl)
    | some properties =>
      cases properties with
      | nil => exact .unnamed hsilent (by rw [hproperties]; rfl)
      | cons property properties => exact .named hsilent hproperties (List.cons_ne_nil _ _)
  · cases hquery : body.query with
    | none => exact absurd (by rw [hquery]; rfl) hsilent
    | some text =>
      have hne : text ≠ "" := fun heq => hsilent (by rw [hquery, heq]; rfl)
      rw [toRequest_freeText (by rw [hquery, filter_query_of_ne hne])]
      exact .freeText hquery hne

/-- A body asks for no other request. -/
theorem SearchBody.Asks.eq_toRequest {body : SearchBody} {collection : Collection}
    {request : SearchRequest} (h : body.Asks collection request) :
    request = body.toRequest collection := by
  cases h with
  | freeText given nonempty =>
    rw [toRequest_freeText (by rw [given, filter_query_of_ne nonempty])]
    rfl
  | @named properties silent given nonempty =>
    have hkept : (some properties).filter (!·.isEmpty) = some properties := by
      rw [Option.filter_some, if_pos (by simpa using nonempty)]
    rw [toRequest_structured (filter_query_of_silent silent), given, hkept]
    rfl
  | unnamed silent empty =>
    have hdropped : body.properties.filter (!·.isEmpty) = none := by
      cases hproperties : body.properties with
      | none => rfl
      | some properties =>
        rw [hproperties] at empty
        obtain rfl : properties = [] := empty
        rfl
    rw [toRequest_structured (filter_query_of_silent silent), hdropped]
    rfl

/-! ## The verdict -/

theorem Verdict.validate {endpoint : String} {body : SearchBody}
    {outcome : Except QueryError Search} (h : Verdict endpoint body outcome) :
    validate endpoint body = outcome := by
  cases h with
  | unsupported unknown => rw [Query.validate, resolveCollection_of_notMem unknown]
  | breach known breaks =>
    obtain ⟨collection, hid⟩ := exists_id_of_mem known
    have hlimits : Query.checkLimits (body.filterGroups.getD []) = _ := breaks.checkLimits
    rw [Query.validate, resolveCollection_eq_ok_iff.mpr hid]
    simp only [hlimits]
  | accepted known within asks =>
    rw [validate_eq_ok_iff]
    exact ⟨resolveCollection_eq_ok_iff.mpr known, checkLimits_eq_ok_iff_withinCaps.mpr within,
      asks.eq_toRequest⟩

/-- Some verdict falls on every body. -/
theorem exists_verdict (endpoint : String) (body : SearchBody) :
    ∃ outcome, Verdict endpoint body outcome := by
  by_cases hknown : endpoint ∈ Collection.identifiers
  · rcases withinCaps_or_breach body.groups with hwithin | ⟨e, hbreach⟩
    · obtain ⟨collection, hid⟩ := exists_id_of_mem hknown
      exact ⟨.ok ⟨collection, body.toRequest collection⟩,
        .accepted hid hwithin (body.asks_toRequest collection)⟩
    · exact ⟨.error e, .breach hknown hbreach⟩
  · exact ⟨_, .unsupported hknown⟩

theorem validate_eq_iff_verdict {endpoint : String} {body : SearchBody}
    {outcome : Except QueryError Search} :
    validate endpoint body = outcome ↔ Verdict endpoint body outcome := by
  refine ⟨fun h => ?_, Verdict.validate⟩
  obtain ⟨found, hfound⟩ := exists_verdict endpoint body
  rwa [← h, hfound.validate]

/-- A rejection depends on the endpoint and the groups alone. -/
theorem Verdict.error_congr {endpoint : String} {body other : SearchBody} {e : QueryError}
    (h : Verdict endpoint body (.error e)) (hgroups : other.groups = body.groups) :
    Verdict endpoint other (.error e) := by
  cases h with
  | unsupported unknown => exact .unsupported unknown
  | breach known breaks => exact .breach known (hgroups ▸ breaks)

/-- A body with a text is accepted as any other body with that text and limit. -/
theorem Verdict.freeText_congr {endpoint : String} {body other : SearchBody} {search : Search}
    {text : String} (h : Verdict endpoint body (.ok search)) (htext : body.query = some text)
    (hne : text ≠ "") (hquery : other.query = body.query) (hlimit : other.limit = body.limit)
    (hwithin : WithinCaps other.groups) : Verdict endpoint other (.ok search) := by
  cases h with
  | accepted known within asks =>
    refine .accepted known hwithin ?_
    have hother : other.toRequest search.collection = body.toRequest search.collection := by
      have hbody : body.query.filter (· != "") = some text := by
        rw [htext, filter_query_of_ne hne]
      have hsame : other.query.filter (· != "") = some text := by rw [hquery, hbody]
      rw [SearchBody.toRequest_freeText hbody, SearchBody.toRequest_freeText hsame,
        SearchBody.pageSize, SearchBody.pageSize, hlimit]
    rw [asks.eq_toRequest, ← hother]
    exact other.asks_toRequest search.collection

/-- The outcome of validating is the verdict: the first rule that is broken, or else the request
    that the body asks for.  No other part of a body than its groups leads to a rejection, and beside
    a text only the limit has an effect. -/
theorem validate_verdict (endpoint : String) (body : SearchBody) :
    Collection.identifiers.length = 20 ∧
      (∀ outcome, validate endpoint body = outcome ↔ Verdict endpoint body outcome) ∧
      (∀ other : SearchBody, other.groups = body.groups →
        ∀ e, validate endpoint other = .error e ↔ validate endpoint body = .error e) ∧
      (∀ text search, body.query = some text → text ≠ "" → validate endpoint body = .ok search →
        ∀ other : SearchBody, other.query = body.query → other.limit = body.limit →
          WithinCaps other.groups → validate endpoint other = .ok search) := by
  refine ⟨rfl, fun outcome => validate_eq_iff_verdict, fun other hgroups e => ?_,
    fun text search htext hne haccepted other hquery hlimit hwithin => ?_⟩
  · rw [validate_eq_iff_verdict, validate_eq_iff_verdict]
    exact ⟨fun h => h.error_congr hgroups.symm, fun h => h.error_congr hgroups⟩
  · rw [validate_eq_iff_verdict] at haccepted ⊢
    exact haccepted.freeText_congr htext hne hquery hlimit hwithin

end SearchGateway.Query
