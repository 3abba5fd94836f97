/-
  SearchGateway.Proofs.Translation

  Translating a canonical query gives back what it was written from.
-/
import Mathlib.Data.List.Perm.Basic
import SearchGateway.Proofs.Bounds
import SearchGateway.Proofs.CanonicalRecovery

namespace SearchGateway.Query

namespace CanonicalQuery

/-! ## The request -/

/-- Every token has its predicate and there are no others. -/
theorem predicates_perm (query : CanonicalQuery) :
    query.predicates.Perm (query.tokens.map (·.predicate)) := by
  show (TokenKind.all.flatMap fun kind => predicatesOf kind query.tokens).Perm _
  induction query.tokens with
  | nil => rfl
  | cons token tokens ih =>
    -- every kind is looked for once, so the first token gives its predicate once
    have hown : (TokenKind.all.flatMap fun kind =>
        if token.kind = kind then [token.predicate] else []) = [token.predicate] := by
      generalize token.predicate = predicate
      generalize token.kind = kind
      rcases kind with ((_ | _) | (_ | _) | (_ | _)) | _ | (_ | _) <;> rfl
    simp only [predicatesOf_cons]
    refine (List.flatMap_append_perm _ _ _).symm.trans ?_
    rw [hown, List.map_cons, List.singleton_append]
    exact ih.cons _

theorem length_predicates (query : CanonicalQuery) :
    query.predicates.length = query.tokens.length := by
  rw [query.predicates_perm.length_eq, List.length_map]

theorem pagination_text (query : CanonicalQuery) :
    Pagination.ofText query.text = ⟨query.request.limit, query.request.after⟩ := by
  have hlimit : Limits.pageSize.apply ((query.limit.map Int64.toInt).getD Limits.defaultPageSize) =
      query.request.limit := by
    unfold request
    cases query.limit <;> rfl
  rw [Pagination.ofText, directive?_limit, directive?_offset, hlimit, Option.map_map]
  rfl

theorem assemble_text (query : CanonicalQuery) :
    assemble (extract query.text)
      ((selectedProperties? query.text).getD query.collection.defaultProperties)
      (.ofText query.text) = query.request := by
  have hempty : query.predicates.isEmpty = query.tokens.isEmpty := by
    rw [Bool.eq_iff_iff, List.isEmpty_iff_length_eq_zero, List.isEmpty_iff_length_eq_zero,
      query.length_predicates]
  rw [extract_text, selectedProperties?_text, pagination_text, assemble, hempty]
  rfl

/-- One group passes the caps when it has at most six filters. -/
theorem checkLimits_request (query : CanonicalQuery) :
    checkLimits query.request.filterGroups =
      if query.tokens.length ≤ 6 then .ok ()
      else .error (.tooManyFiltersInGroup 0 query.tokens.length 6) := by
  rw [← query.assemble_text, checkLimits_assemble, query.extract_text, query.length_predicates]

/-- Translating a canonical query gives its collection and its request, with one predicate for each
    token, unless it has more tokens than a group may have filters. -/
theorem translate_text (query : CanonicalQuery) :
    query.predicates.Perm (query.tokens.map (·.predicate)) ∧
      translate query.text =
        if query.tokens.length ≤ 6 then .ok ⟨query.collection, query.request⟩
        else .error (.tooManyFiltersInGroup 0 query.tokens.length 6) := by
  refine ⟨query.predicates_perm, ?_⟩
  simp only [translate, detectCollection_text, assemble_text, checkLimits_request]
  by_cases hcount : query.tokens.length ≤ 6
  · simp only [if_pos hcount]
  · simp only [if_neg hcount]

/-- A query with tokens of each form out of their order, a page and a selection. -/
def mixed : CanonicalQuery where
  collection := .deals
  tokens := [
    .list ⟨"stage".toList, by decide, by decide⟩ .notInList
      ⟨⟨"a b".toList, by decide⟩, by decide, by decide, by decide, by decide⟩
      [⟨⟨[], by decide⟩, by decide, by decide, by decide, by decide⟩],
    .scalar ⟨"amount__lt".toList, by decide, by decide⟩ (.compare .lessOrEqual)
      ⟨"5, 6]".toList, by decide⟩,
    .range ⟨"size".toList, by decide, by decide⟩ ⟨"1".toList, by decide⟩ ⟨"2".toList, by decide⟩]
  range_last := by decide
  limit := some 500
  offset := some (-4)
  selection := some [⟨⟨"items".toList, by decide, by decide⟩, by decide⟩]

example : mixed.text =
    "\x7b deals(filter: \x7b stage__not_in: [\"a b\", \"\"], amount__lt__lte: \"5, 6]\", " ++
      "size__between: \x7b value: \"1\", highValue: \"2\" \x7d \x7d, limit: 500, offset: -4) " ++
      "\x7b items \x7b items \x7d total \x7d \x7d" := by
  decide +kernel

/-- A query with one token more than a group may have filters. -/
def crowded : CanonicalQuery where
  collection := .contacts
  tokens := List.replicate 7 <| .scalar ⟨"a".toList, by decide, by decide⟩ (.compare .equal)
    ⟨"1".toList, by decide⟩
  range_last := by decide
  limit := none
  offset := none
  selection := none

/-- A crowded query is rejected, so it gives no group at all. -/
theorem translate_crowded :
    translate crowded.text = .error (.tooManyFiltersInGroup 0 7 6) ∧
      ∀ request, translate crowded.text ≠ .ok ⟨crowded.collection, request⟩ := by
  have hrejected : translate crowded.text = .error (.tooManyFiltersInGroup 0 7 6) := by
    decide +kernel
  refine ⟨hrejected, fun request haccepted => ?_⟩
  rw [hrejected] at haccepted
  exact nomatch haccepted

end CanonicalQuery

end SearchGateway.Query
