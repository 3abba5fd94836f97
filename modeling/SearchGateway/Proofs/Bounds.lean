/-
  SearchGateway.Proofs.Bounds

  What both ways to a search promise about the request: it stays within the caps,
  and it is either a free-text search and nothing else or a structured search that
  asks for at least one property.
-/
import SearchGateway.Query.Search
import SearchGateway.Proofs.Reading
import SearchGateway.Proofs.Scanning

namespace SearchGateway.Query

/-! ## The caps -/

theorem checkGroups_eq_ok_iff (index : Nat) (groups : List FilterGroup) :
    checkGroups index groups = .ok () ↔ ∀ group ∈ groups, group.size ≤ 6 := by
  induction groups generalizing index with
  | nil => simp [checkGroups]
  | cons group groups ih =>
    rw [checkGroups]
    split
    · rename_i hallows
      rw [ih, List.forall_mem_cons]
      exact (and_iff_right (HardCap.allows_iff.mp hallows)).symm
    · rename_i hrejects
      rw [List.forall_mem_cons]
      refine ⟨fun h => (nomatch h), fun h => absurd (HardCap.allows_iff.mpr h.1) hrejects⟩

/-- Groups pass the caps when there are at most five, with at most six filters each and eighteen in
    all. -/
theorem checkLimits_eq_ok_iff (groups : List FilterGroup) :
    checkLimits groups = .ok () ↔
      groups.length ≤ 5 ∧ (∀ group ∈ groups, group.size ≤ 6) ∧ totalFilters groups ≤ 18 := by
  have hcount : Limits.filterGroups.allows groups.length = true ↔ groups.length ≤ 5 :=
    HardCap.allows_iff
  have htotal : Limits.totalFilters.allows (totalFilters groups) = true ↔
      totalFilters groups ≤ 18 := HardCap.allows_iff
  -- the three caps are tried one behind the other
  rw [← hcount, ← htotal, ← checkGroups_eq_ok_iff 0, checkLimits]
  cases Limits.filterGroups.allows groups.length with
  | false => simp
  | true =>
    cases hgroups : checkGroups 0 groups with
    | error e => simp
    | ok u => cases Limits.totalFilters.allows (totalFilters groups) <;> simp

theorem checkLimits_single (predicates : List Predicate) :
    checkLimits [⟨predicates⟩] =
      if predicates.length ≤ 6 then .ok ()
      else .error (.tooManyFiltersInGroup 0 predicates.length 6) := by
  have hsize : FilterGroup.size ⟨predicates⟩ = predicates.length := rfl
  by_cases hcount : predicates.length ≤ 6
  · rw [if_pos hcount, checkLimits_eq_ok_iff]
    have htotal : totalFilters [⟨predicates⟩] = predicates.length := Nat.add_zero _
    refine ⟨Nat.succ_le_succ (Nat.zero_le 4), fun group hmem => ?_, ?_⟩
    · rw [List.mem_singleton.mp hmem, hsize]
      exact hcount
    · rw [htotal]
      omega
  · have hrejects : Limits.filtersPerGroup.allows predicates.length = false := by
      rw [← Bool.not_eq_true, HardCap.allows_iff]
      exact hcount
    -- the number of groups is within its cap, so the first cap that fails is that of the group
    rw [if_neg hcount, checkLimits, checkGroups, hsize, hrejects]
    rfl

/-- The group that is made of some predicates passes the caps when they are at most six. -/
theorem checkLimits_assemble (predicates : List Predicate) (properties : List String)
    (page : Pagination) :
    checkLimits (assemble predicates properties page).filterGroups =
      if predicates.length ≤ 6 then .ok ()
      else .error (.tooManyFiltersInGroup 0 predicates.length 6) := by
  cases predicates with
  | nil => rfl
  | cons predicate predicates => exact checkLimits_single (predicate :: predicates)

/-! ## Property names -/

/-- Names of properties that may be asked for: there is one at least, none is empty, and none is
    `id`, which would take the place of the id of an object. -/
structure Selectable (names : List String) : Prop where
  nonempty : names ≠ []
  no_id : "id" ∉ names
  no_empty : "" ∉ names

theorem Collection.selectable_defaultProperties (collection : Collection) :
    Selectable collection.defaultProperties := by
  cases collection <;> exact ⟨by decide, by decide, by decide⟩

/-- The names of a selection are words other than `id`. -/
theorem selectable_of_selectedProperties? {raw : String} {names : List String}
    (h : selectedProperties? raw = some names) : Selectable names := by
  unfold selectedProperties? at h
  split at h
  · exact nomatch h
  · rename_i body _
    simp only at h
    split at h
    · exact nomatch h
    · rename_i hnonempty
      obtain rfl := Option.some.inj h
      refine ⟨fun hnil => hnonempty (List.isEmpty_iff.mpr hnil), fun hid => ?_, fun hempty => ?_⟩
      · exact absurd (List.of_mem_filter hid) (by decide)
      · obtain ⟨word, hword, heq⟩ := List.mem_map.mp (List.mem_of_mem_filter hempty)
        exact Text.ne_nil_of_mem_words hword (String.ofList_eq_empty_iff.mp heq)

/-! ## What a search that is accepted looks like -/

/-- Query text is accepted when it names a collection and its filters pass the caps. -/
theorem translate_eq_ok_iff {raw : String} {search : Search} :
    translate raw = .ok search ↔
      detectCollection raw = .ok search.collection ∧
        search.request = assemble (extract raw)
          ((selectedProperties? raw).getD search.collection.defaultProperties) (.ofText raw) ∧
        checkLimits search.request.filterGroups = .ok () := by
  obtain ⟨collection, request⟩ := search
  unfold translate
  cases hcollection : detectCollection raw with
  | error e => simp
  | ok found =>
    simp only
    constructor
    · intro h
      split at h
      · exact nomatch h
      · rename_i hlimits
        obtain ⟨rfl, rfl⟩ := Search.mk.inj (Except.ok.inj h)
        exact ⟨rfl, rfl, hlimits⟩
    · rintro ⟨hfound, hrequest, hlimits⟩
      obtain rfl := Except.ok.inj hfound
      obtain rfl : request = _ := hrequest
      rw [hlimits]

theorem selectable_properties {raw : String} {search : Search} (h : translate raw = .ok search) :
    Selectable search.request.properties := by
  obtain ⟨-, hrequest, -⟩ := translate_eq_ok_iff.mp h
  rw [hrequest]
  show Selectable ((selectedProperties? raw).getD search.collection.defaultProperties)
  cases hselected : selectedProperties? raw with
  | none => exact search.collection.selectable_defaultProperties
  | some names => exact selectable_of_selectedProperties? hselected

/-- A structured body is accepted when its endpoint names a collection and its filters pass the
    caps. -/
theorem validate_eq_ok_iff {endpoint : String} {body : SearchBody} {search : Search} :
    validate endpoint body = .ok search ↔
      resolveCollection endpoint = .ok search.collection ∧
        checkLimits (body.filterGroups.getD []) = .ok () ∧
        search.request = body.toRequest search.collection := by
  obtain ⟨collection, request⟩ := search
  unfold validate
  cases hcollection : resolveCollection endpoint with
  | error e => simp
  | ok found =>
    cases hlimits : checkLimits (body.filterGroups.getD []) with
    | error e => simp
    | ok u =>
      simp only [Except.ok.injEq, Search.mk.injEq, true_and]
      constructor
      · rintro ⟨rfl, rfl⟩
        exact ⟨rfl, rfl⟩
      · rintro ⟨rfl, rfl⟩
        exact ⟨rfl, rfl⟩

/-! ## Bounded requests -/

/-- A free-text search: a text that is not empty, and no filters, properties or cursor. -/
def SearchRequest.IsFreeText (request : SearchRequest) : Prop :=
  (∃ text, request.query = some text ∧ text ≠ "") ∧ request.filterGroups = [] ∧
    request.properties = [] ∧ request.after = none

/-- A structured search: no text, and at least one property. -/
def SearchRequest.IsStructured (request : SearchRequest) : Prop :=
  request.query = none ∧ request.properties ≠ []

/-- A request within all bounds, in one of the two forms. -/
structure SearchRequest.Bounded (request : SearchRequest) : Prop where
  groups : request.filterGroups.length ≤ 5
  perGroup : ∀ group ∈ request.filterGroups, group.size ≤ 6
  total : request.totalFilters ≤ 18
  limit : request.limit ≤ 200
  form : request.IsFreeText ∨ request.IsStructured

theorem SearchRequest.Bounded.checkLimits {request : SearchRequest} (h : request.Bounded) :
    checkLimits request.filterGroups = .ok () :=
  (checkLimits_eq_ok_iff _).mpr ⟨h.groups, h.perGroup, h.total⟩

/-- Every search that query text asks for is bounded. -/
theorem translate_bounded {raw : String} {search : Search} (h : translate raw = .ok search) :
    search.request.Bounded := by
  have hselectable := selectable_properties h
  obtain ⟨-, hrequest, hlimits⟩ := translate_eq_ok_iff.mp h
  obtain ⟨hgroups, hperGroup, htotal⟩ := (checkLimits_eq_ok_iff _).mp hlimits
  refine ⟨hgroups, hperGroup, htotal, ?_, .inr ⟨?_, hselectable.nonempty⟩⟩
  · rw [hrequest]
    exact SoftCap.apply_le _ _
  · rw [hrequest]
    rfl

/-- The page size that a body gets. -/
def SearchBody.pageSize (body : SearchBody) : Int :=
  Limits.pageSize.apply (body.limit.getD Limits.defaultPageSize)

theorem SearchBody.toRequest_freeText {body : SearchBody} {text : String}
    (h : body.query.filter (· != "") = some text) (collection : Collection) :
    body.toRequest collection = ⟨some text, [], [], body.pageSize, none⟩ := by
  simp only [SearchBody.toRequest, h, SearchBody.pageSize]

theorem SearchBody.toRequest_structured {body : SearchBody}
    (h : body.query.filter (· != "") = none) (collection : Collection) :
    body.toRequest collection = ⟨none, body.filterGroups.getD [],
      (body.properties.filter (!·.isEmpty)).getD collection.defaultProperties, body.pageSize,
      body.after⟩ := by
  simp only [SearchBody.toRequest, h, SearchBody.pageSize]

/-- The request of a body whose groups pass the caps is bounded. -/
theorem SearchBody.toRequest_bounded {body : SearchBody}
    (h : Query.checkLimits (body.filterGroups.getD []) = .ok ()) (collection : Collection) :
    (body.toRequest collection).Bounded := by
  have hlimit : body.pageSize ≤ 200 := SoftCap.apply_le _ _
  -- the caps are checked on the groups of the body, also when a text puts them aside
  cases htext : body.query.filter (· != "") with
  | some text =>
    have hne : text ≠ "" := by
      have hkept := (Option.filter_eq_some_iff.mp htext).2
      simpa using hkept
    rw [toRequest_freeText htext]
    exact ⟨Nat.zero_le _, fun _ hmem => (nomatch hmem), Nat.zero_le _, hlimit,
      .inl ⟨⟨text, rfl, hne⟩, rfl, rfl, rfl⟩⟩
  | none =>
    obtain ⟨hgroups, hperGroup, htotal⟩ := (checkLimits_eq_ok_iff _).mp h
    rw [toRequest_structured htext]
    refine ⟨hgroups, hperGroup, htotal, hlimit, .inr ⟨rfl, ?_⟩⟩
    cases hproperties : body.properties.filter (!·.isEmpty) with
    | none => exact collection.selectable_defaultProperties.nonempty
    | some names =>
      have hkept := (Option.filter_eq_some_iff.mp hproperties).2
      rintro rfl
      exact absurd hkept (by decide)

/-- Every search that a structured body asks for is bounded. -/
theorem validate_bounded {endpoint : String} {body : SearchBody} {search : Search}
    (h : validate endpoint body = .ok search) : search.request.Bounded := by
  obtain ⟨-, hlimits, hrequest⟩ := validate_eq_ok_iff.mp h
  rw [hrequest]
  exact SearchBody.toRequest_bounded hlimits search.collection

/-! ## Page sizes of 64 bits -/

/-- Lowering a value to the page size cap keeps it in 64 bits. -/
theorem isInt64_pageSize {n : Int} (h : Json.IsInt64 n) :
    Json.IsInt64 (Limits.pageSize.apply n) := by
  have hcap : Limits.pageSize.max = 200 := rfl
  simp only [Json.IsInt64, SoftCap.apply, hcap] at h ⊢
  omega

/-- A directive gives an integer of 64 bits. -/
theorem isInt64_of_directive? {keyword raw : String} {n : Int}
    (h : directive? keyword raw = some n) : Json.IsInt64 n := by
  obtain ⟨text, -, hvalue⟩ := Option.bind_eq_some_iff.mp h
  have hrange := (Option.filter_eq_some_iff.mp hvalue).2
  simpa only [Json.IsInt64, Bool.and_eq_true, decide_eq_true_eq] using hrange

/-- The page size that query text asks for is an integer of 64 bits. -/
theorem isInt64_of_translate {raw : String} {search : Search} (h : translate raw = .ok search) :
    Json.IsInt64 search.request.limit := by
  rw [(translate_eq_ok_iff.mp h).2.1]
  apply isInt64_pageSize
  cases hdirective : directive? "limit" raw with
  | none => decide
  | some n => exact isInt64_of_directive? hdirective

/-- The page size of a body that is read is an integer of 64 bits. -/
theorem isInt64_of_parse {bytes : List UInt8} {body : SearchBody}
    (h : SearchBody.parse bytes = .ok body) : ∀ n ∈ body.limit, Json.IsInt64 n := by
  have hkeeps : SearchBody.shape.Keeps fun body => ∀ n ∈ body.limit, Json.IsInt64 n := by
    intro field hfield depth bytes set rest hset x hx
    simp only [SearchBody.shape, List.mem_cons, List.not_mem_nil, or_false] at hfield
    rcases hfield with rfl | rfl | rfl | rfl | rfl
    case inr.inr.inl =>
      obtain ⟨limit, hlimit, rfl⟩ := Json.Field.exists_of_optional hset
      intro n hn
      obtain ⟨_, hread⟩ := Json.exists_of_optional hlimit n hn
      exact Json.isInt64_of_int64 hread
    -- the other fields leave the page size alone
    all_goals
      obtain ⟨part, -, rfl⟩ := Json.Field.exists_of_optional hset
      exact hx
  unfold SearchBody.parse Json.read at h
  split at h
  · cases h
  · rename_i found rest hread
    split at h
    · obtain rfl := Except.ok.inj h
      exact hkeeps.read (by rintro n ⟨⟩) hread
    · cases h

/-- The page size of a validated body is an integer of 64 bits when the body gives such a one or
    none. -/
theorem isInt64_of_validate {endpoint : String} {body : SearchBody} {search : Search}
    (hlimit : ∀ n ∈ body.limit, Json.IsInt64 n) (h : validate endpoint body = .ok search) :
    Json.IsInt64 search.request.limit := by
  have hpage : search.request.limit = body.pageSize := by
    rw [(validate_eq_ok_iff.mp h).2.2]
    cases htext : body.query.filter (· != "") with
    | some text => rw [SearchBody.toRequest_freeText htext]
    | none => rw [SearchBody.toRequest_structured htext]
  rw [hpage]
  apply isInt64_pageSize
  cases hbody : body.limit with
  | none => decide
  | some n => exact hlimit n hbody

end SearchGateway.Query
