/-
  SearchGateway.Proofs.FilterClause

  Which part of query text its filter clause is.  The clause goes from the first
  opening that is closed anywhere behind it to the first closing brace, and what is
  extracted from a text depends on nothing else in it.
-/
import SearchGateway.Proofs.FirstPlaces
import SearchGateway.Proofs.TokenKinds

namespace SearchGateway.Query

open SearchGateway.Text

/-! ## Clauses in a text -/

/-- A clause as it is written, with what stands behind its closing brace. -/
def clauseChars (gap body behind : List Char) : List Char :=
  "filter:".toList ++ (gap ++ '\x7b' :: (body ++ '\x7d' :: behind))

/-- Behind a piece of a text a clause is opened, and there is a closing brace somewhere behind the
    opening one. -/
def OpensClause (cs before : List Char) : Prop :=
  ∃ gap rest, cs = before ++ ("filter:".toList ++ (gap ++ '\x7b' :: rest)) ∧
    isBlank gap = true ∧ '\x7d' ∈ rest

/-- The clause of a text: the first one that is opened and closed, up to its first closing brace. -/
structure FirstClause (cs before gap body behind : List Char) : Prop where
  eq : cs = before ++ clauseChars gap body behind
  blank : isBlank gap = true
  bare : '\x7d' ∉ body
  first : ∀ earlier, OpensClause cs earlier → before.length ≤ earlier.length

theorem recognises_braces :
    Recognises (enclosed? '\x7b' '\x7d') (Enclosed '\x7b' '\x7d') :=
  recognises_enclosed (by decide) (by decide)

/-- A scan for a clause is a scan for the keyword and then for a pair of braces. -/
theorem clauseHere?_eq_some_iff_exists {cs body : List Char} :
    clauseHere? cs = some body ↔ ∃ rest behind, after? "filter:".toList cs = some rest ∧
      enclosed? '\x7b' '\x7d' (dropSpace rest) = some (body, behind) := by
  rw [clauseHere?, Option.bind_eq_bind, Option.bind_eq_some_iff]
  refine exists_congr fun rest => ?_
  rw [exists_and_left]
  refine and_congr_right fun _ => ?_
  cases enclosed? '\x7b' '\x7d' (dropSpace rest) with
  | none => simp
  | some found => simp [Prod.ext_iff]

/-- A clause starts here when the text begins like one. -/
theorem clauseHere?_eq_some_iff {cs body : List Char} :
    clauseHere? cs = some body ↔
      ∃ gap behind, isBlank gap = true ∧ '\x7d' ∉ body ∧ cs = clauseChars gap body behind := by
  unfold clauseChars
  rw [clauseHere?_eq_some_iff_exists]
  generalize "filter:".toList = keyword
  constructor
  · rintro ⟨rest, behind, hrest, hbraces⟩
    obtain ⟨gap, text, hgap, ⟨htext, hbare⟩, hgapped⟩ := recognises_braces.spelled_gap hbraces
    refine ⟨gap, behind, hgap, hbare, ?_⟩
    rw [eq_append_of_after? hrest, hgapped, htext]
    simp
  · rintro ⟨gap, behind, hgap, hbare, rfl⟩
    refine ⟨gap ++ '\x7b' :: (body ++ '\x7d' :: behind), behind, after?_append _ _, ?_⟩
    have hbraces := recognises_braces.reads_gap hgap ⟨rfl, hbare⟩ behind
    rwa [List.cons_append, List.append_assoc, List.singleton_append] at hbraces

/-- A clause is opened and closed where one starts. -/
theorem opensClause_iff {cs before : List Char} :
    OpensClause cs before ↔ ∃ later, cs = before ++ later ∧ clauseHere? later ≠ none := by
  constructor
  · rintro ⟨gap, rest, rfl, hgap, hrest⟩
    -- what follows the opening goes up to the first closing brace
    obtain ⟨body, behind, rfl, hbody⟩ := List.eq_append_cons_of_mem hrest
    refine ⟨clauseChars gap body behind, rfl, ?_⟩
    rw [clauseHere?_eq_some_iff.mpr ⟨gap, behind, hgap, hbody, rfl⟩]
    exact Option.some_ne_none body
  · rintro ⟨later, rfl, hlater⟩
    obtain ⟨body, hbody⟩ := Option.ne_none_iff_exists'.mp hlater
    obtain ⟨gap, behind, hgap, -, rfl⟩ := clauseHere?_eq_some_iff.mp hbody
    exact ⟨gap, body ++ '\x7d' :: behind, rfl, hgap, by simp⟩

/-- The scan finds the first clause. -/
theorem firstMatch_clauseHere?_eq_some_iff {cs body : List Char} :
    firstMatch clauseHere? cs = some body ↔
      ∃ before gap behind, FirstClause cs before gap body behind := by
  rw [firstMatch_eq_some_iff]
  constructor
  · rintro ⟨before, rest, hplace⟩
    obtain ⟨gap, behind, hgap, hbare, rfl⟩ := clauseHere?_eq_some_iff.mp hplace.found
    refine ⟨before, gap, behind, hplace.eq, hgap, hbare, fun earlier hopens => ?_⟩
    obtain ⟨later, hlater, hfound⟩ := opensClause_iff.mp hopens
    exact Nat.le_of_not_lt fun hlt => hfound (hplace.first earlier later hlater trivial hlt)
  · rintro ⟨before, gap, behind, hclause⟩
    refine ⟨before, _, hclause.eq, trivial,
      clauseHere?_eq_some_iff.mpr ⟨gap, behind, hclause.blank, hclause.bare, rfl⟩,
      fun earlier later hlater _ hlt => ?_⟩
    refine Classical.not_not.mp fun hfound => ?_
    exact absurd (hclause.first earlier (opensClause_iff.mpr ⟨later, hlater, hfound⟩))
      (Nat.not_le_of_lt hlt)

theorem filterClause?_eq_some_iff {raw : String} {body : List Char} :
    filterClause? raw = some (String.ofList body) ↔
      ∃ before gap behind, FirstClause raw.toList before gap body behind := by
  rw [← firstMatch_clauseHere?_eq_some_iff, filterClause?]
  cases firstMatch clauseHere? raw.toList with
  | none => simp
  | some found => simp [String.ofList_inj]

theorem filterClause?_eq_none_iff {raw : String} :
    filterClause? raw = none ↔ ∀ before, ¬ OpensClause raw.toList before := by
  rw [filterClause?, Option.map_eq_none_iff, firstMatch_eq_none_iff]
  constructor
  · intro hnone before hopens
    obtain ⟨later, hlater, hfound⟩ := opensClause_iff.mp hopens
    exact hfound (hnone before later hlater)
  · intro hnone before later hlater
    refine Classical.not_not.mp fun hfound => ?_
    exact hnone before (opensClause_iff.mpr ⟨later, hlater, hfound⟩)

/-! ## What is extracted -/

/-- What is extracted from a text is up to its clause. -/
theorem extract_eq (raw : String) :
    extract raw = match filterClause? raw with
      | none => []
      | some clause => clausePredicates clause.toList := by
  rw [extract, filterClause?]
  cases firstMatch clauseHere? raw.toList with
  | none => rfl
  | some clause => simp

/-- A clause behind text without the keyword is the first one. -/
theorem firstClause_of_not_infix {before gap body : List Char} (hgap : isBlank gap = true)
    (hbody : '\x7d' ∉ body) (hbefore : ¬ "filter:".toList <:+: before) (behind : List Char) :
    FirstClause (before ++ clauseChars gap body behind) before gap body behind := by
  refine ⟨rfl, hgap, hbody, ?_⟩
  rintro earlier ⟨gap', rest, heq, -, -⟩
  refine Nat.le_of_not_lt fun hlt => hbefore ?_
  -- the keyword would have to start in the text before the clause, and it does not reach out of it
  have hk : 'f' ∉ "ilter:".toList := by decide
  exact infix_of_lt hk heq hlt

/-- A text has no clause, and nothing is extracted from it, when no opening in it is closed.
    Otherwise its clause goes from the first opening that is closed to the first closing brace, and
    the same is extracted from every text with that clause, whatever stands behind it, and whatever
    text without the keyword stands before it. -/
theorem extract_clause (raw : String) :
    (filterClause? raw = none ↔ ∀ before, ¬ OpensClause raw.toList before) ∧
      (filterClause? raw = none → extract raw = []) ∧
      (filterClause? raw ≠ none →
        ∃ before gap body behind, FirstClause raw.toList before gap body behind) ∧
      ∀ before gap body behind, FirstClause raw.toList before gap body behind →
        filterClause? raw = some (String.ofList body) ∧
          ∀ before' gap' behind', ¬ "filter:".toList <:+: before' → isBlank gap' = true →
            extract (String.ofList (before' ++ clauseChars gap' body behind')) = extract raw := by
  refine ⟨filterClause?_eq_none_iff, fun hnone => ?_, fun hsome => ?_,
    fun before gap body behind hclause => ?_⟩
  · rw [extract_eq, hnone]
  · obtain ⟨clause, hclause⟩ := Option.ne_none_iff_exists'.mp hsome
    rw [← String.ofList_toList (s := clause)] at hclause
    obtain ⟨before, gap, behind, hfirst⟩ := filterClause?_eq_some_iff.mp hclause
    exact ⟨before, gap, clause.toList, behind, hfirst⟩
  · have hraw := filterClause?_eq_some_iff.mpr ⟨before, gap, behind, hclause⟩
    refine ⟨hraw, fun before' gap' behind' hbefore' hgap' => ?_⟩
    have hfirst := firstClause_of_not_infix hgap' hclause.bare hbefore' behind'
    rw [← String.toList_ofList (l := before' ++ clauseChars gap' body behind')] at hfirst
    rw [extract_eq, extract_eq, hraw,
      filterClause?_eq_some_iff.mpr ⟨before', gap', behind', hfirst⟩]

end SearchGateway.Query
