/-
  SearchGateway.Proofs.TextRequests

  What translating query text comes to.  There are two ways to fail; otherwise the
  request carries the predicates of the text as they were found, and asks for
  properties beside which the ids of the objects stay what they are.
-/
import SearchGateway.Proofs.Bounds
import SearchGateway.Proofs.Decimals
import SearchGateway.Proofs.SelectedItems

namespace SearchGateway.Query

open SearchGateway.Backend (Item SearchResponse)
open SearchGateway.Json (IsDecimal IsInt64 Value)

/-! ## The request -/

/-- A request with some predicates in one group and nothing in any other, in which the page is of
    at most 200 objects and the cursor a decimal text. -/
structure SearchRequest.Carries (request : SearchRequest) (predicates : List Predicate) : Prop where
  query : request.query = none
  empty : request.filterGroups = [] ↔ predicates = []
  single : predicates ≠ [] → request.filterGroups = [⟨predicates⟩]
  limit : request.limit ≤ 200
  after : ∀ cursor ∈ request.after, ∃ n, IsInt64 n ∧ IsDecimal cursor n

theorem isDecimal_after {raw cursor : String} (h : cursor ∈ (Pagination.ofText raw).after) :
    ∃ n, IsInt64 n ∧ IsDecimal cursor n := by
  obtain ⟨n, hn, rfl⟩ := Option.map_eq_some_iff.mp h
  exact ⟨n, isInt64_of_directive? hn, Json.isDecimal_iff.mpr rfl⟩

theorem carries_assemble (predicates : List Predicate) (properties : List String) (raw : String) :
    (assemble predicates properties (.ofText raw)).Carries predicates where
  query := rfl
  empty := by
    cases predicates with
    | nil => exact iff_of_true rfl rfl
    | cons predicate predicates => exact iff_of_false (List.cons_ne_nil _ _) (List.cons_ne_nil _ _)
  single h := by
    cases predicates with
    | nil => exact absurd rfl h
    | cons predicate predicates => rfl
  limit := SoftCap.apply_le _ _
  after _ h := isDecimal_after h

/-! ## The outcome -/

theorem eq_missingCollection {raw : String} {e : QueryError} (h : detectCollection raw = .error e) :
    e = .missingCollection := by
  unfold detectCollection at h
  split at h
  · exact nomatch h
  · exact (Except.error.inj h).symm

/-- Text that names a collection is rejected for its number of predicates only. -/
theorem translate_of_named {raw : String} {collection : Collection}
    (h : detectCollection raw = .ok collection) :
    translate raw =
      if (extract raw).length ≤ 6 then
        .ok ⟨collection, assemble (extract raw)
          ((selectedProperties? raw).getD collection.defaultProperties) (.ofText raw)⟩
      else .error (.tooManyFiltersInGroup 0 (extract raw).length 6) := by
  simp only [translate, h, checkLimits_assemble]
  by_cases hcount : (extract raw).length ≤ 6
  · simp only [if_pos hcount]
  · simp only [if_neg hcount]

theorem translate_eq_error_iff {raw : String} {e : QueryError} :
    translate raw = .error e ↔
      (e = .missingCollection ∧ detectCollection raw = .error .missingCollection) ∨
        (e = .tooManyFiltersInGroup 0 (extract raw).length 6 ∧
          (∃ collection, detectCollection raw = .ok collection) ∧ 6 < (extract raw).length) := by
  cases hfound : detectCollection raw with
  | error missing =>
    obtain rfl := eq_missingCollection hfound
    have hunnamed : translate raw = .error .missingCollection := by simp only [translate, hfound]
    rw [hunnamed]
    simp [eq_comm]
  | ok collection =>
    rw [translate_of_named hfound]
    by_cases hcount : (extract raw).length ≤ 6
    · simp [hcount, Nat.not_lt.mpr hcount]
    · simp [hcount, Nat.lt_of_not_le hcount, eq_comm]

theorem exists_translate_iff {raw : String} :
    (∃ search, translate raw = .ok search) ↔
      (∃ collection, detectCollection raw = .ok collection) ∧ (extract raw).length ≤ 6 := by
  cases hfound : detectCollection raw with
  | error missing => simp [translate, hfound]
  | ok collection =>
    rw [translate_of_named hfound]
    by_cases hcount : (extract raw).length ≤ 6 <;> simp [hcount]

/-- Translating query text fails when the text names no collection, and otherwise when it has more
    predicates than a group may have; it fails in no other way.  When it succeeds, the predicates of
    the text make up the one group of the request, in the order in which they were found. -/
theorem translate_outcomes (raw : String) :
    (∀ e, translate raw = .error e ↔
      (e = .missingCollection ∧ detectCollection raw = .error .missingCollection) ∨
        (e = .tooManyFiltersInGroup 0 (extract raw).length 6 ∧
          (∃ collection, detectCollection raw = .ok collection) ∧ 6 < (extract raw).length)) ∧
      ((∃ search, translate raw = .ok search) ↔
        (∃ collection, detectCollection raw = .ok collection) ∧ (extract raw).length ≤ 6) ∧
      ∀ search, translate raw = .ok search →
        detectCollection raw = .ok search.collection ∧ search.request.Carries (extract raw) := by
  refine ⟨fun e => translate_eq_error_iff, exists_translate_iff, fun search h => ?_⟩
  obtain ⟨hfound, hrequest, -⟩ := translate_eq_ok_iff.mp h
  refine ⟨hfound, ?_⟩
  rw [hrequest]
  exact carries_assemble _ _ raw

/-! ## The items -/

/-- Where no selected property is called `id`, every item is shown with its own id. -/
theorem forall₂_id_select (response : SearchResponse) {properties : List String}
    (h : "id" ∉ properties) :
    List.Forall₂ (fun (item : Item) (shown : Value) => shown.get? "id" = some (.string item.id))
      response.results (response.select properties) := by
  rw [SearchResponse.select, List.forall₂_map_right_iff, List.forall₂_same]
  exact fun item _ => item.get?_id_select properties h

/-- The properties that query text asks for are named and leave out `id`, so that the answer shows
    every object of a response under its own id, whatever properties the object has. -/
theorem translate_keeps_ids {raw : String} {search : Search} (h : translate raw = .ok search)
    (response : SearchResponse) :
    (search.request.properties ≠ [] ∧ "id" ∉ search.request.properties ∧
        ∀ name ∈ search.request.properties, name ≠ "") ∧
      List.Forall₂ (fun (item : Item) (shown : Value) => shown.get? "id" = some (.string item.id))
        response.results (response.select search.request.properties) := by
  obtain ⟨hnonempty, hid, hempty⟩ := selectable_properties h
  exact ⟨⟨hnonempty, hid, fun name hname heq => hempty (heq ▸ hname)⟩,
    forall₂_id_select response hid⟩

/-- An object that has a property called `id` beside its own id. -/
def shadowedItem : Item :=
  ⟨"7", [("dealname", .string "a"), ("id", .string "9")]⟩

theorem translate_keeps_ids_shadowed :
    translate "\x7b deals \x7b items \x7b id dealname id \x7d \x7d \x7d" =
        .ok ⟨.deals, ⟨none, [], ["dealname"], 10, none⟩⟩ ∧
      (shadowedItem.select ["dealname"]).get? "id" = some (.string "7") := by
  have htranslated : translate "\x7b deals \x7b items \x7b id dealname id \x7d \x7d \x7d" =
      .ok ⟨.deals, ⟨none, [], ["dealname"], 10, none⟩⟩ := by
    decide +kernel
  obtain ⟨-, hitems⟩ := translate_keeps_ids htranslated { results := [shadowedItem] }
  cases hitems with
  | cons hitem _ => exact ⟨htranslated, hitem⟩

end SearchGateway.Query
