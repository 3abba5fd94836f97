/-
  SearchGateway.Proofs.CanonicalClause

  The predicates of a canonical filter clause.  The scan for one suffix finds the
  tokens of that suffix and no others: no key of one suffix ends in another, and a
  value of one form does not begin like a value of another.
-/
import SearchGateway.Proofs.CanonicalQuery
import SearchGateway.Proofs.ClauseTokens
import SearchGateway.Proofs.ListBodies

namespace SearchGateway.Query

open SearchGateway.Text

/-! ## Keys -/

/-- The suffixes of canonical keys. -/
def keySuffixes : List String :=
  Operator.betweenSuffix :: Scalar.all.map Scalar.suffix

/-- How a key of a suffix ends. -/
def keyEnding (suffix : String) : List Char :=
  '_' :: '_' :: suffix.toList

theorem not_keyEnding_suffix :
    ∀ suffix ∈ keySuffixes, ∀ other ∈ keySuffixes, suffix ≠ other →
      ¬ keyEnding other <:+ keyEnding suffix := by
  decide +kernel

/-- A key of one suffix does not end like a key of another, whatever its field is. -/
theorem not_suffix_key {suffix other : String} (hsuffix : suffix ∈ keySuffixes)
    (hother : other ∈ keySuffixes) (hne : suffix ≠ other) (field : Word) :
    ¬ keyEnding other <:+ field.key suffix := by
  intro hends
  -- of two endings of one text one ends in the other, whatever stands in front of them
  have hown : keyEnding suffix <:+ field.key suffix := List.suffix_append _ _
  rcases List.suffix_or_suffix_of_suffix hends hown with h | h
  · exact not_keyEnding_suffix suffix hsuffix other hother hne h
  · exact not_keyEnding_suffix other hother suffix hsuffix (Ne.symm hne) h

theorem fieldOf?_eq_none {suffix word : List Char} (h : ¬ ('_' :: '_' :: suffix) <:+ word) :
    fieldOf? suffix word = none := by
  have hends : ('_' :: '_' :: suffix).isSuffixOf word = false := by
    rw [← Bool.not_eq_true, List.isSuffixOf_iff_suffix]
    exact h
  simp [fieldOf?, hends]

/-- The field of a key of the suffix that is looked for. -/
theorem fieldOf?_key (field : Word) (suffix : String) :
    fieldOf? suffix.toList (field.key suffix) = some field.chars := by
  have hlength : 0 < field.chars.length := List.length_pos_iff.mpr field.ne
  rw [fieldOf?, if_pos (by simp [Word.key, hlength])]
  simp [Word.key]

/-- A key of another suffix has no field. -/
theorem fieldOf?_otherKey {suffix other : String} (hsuffix : suffix ∈ keySuffixes)
    (hother : other ∈ keySuffixes) (hne : suffix ≠ other) (field : Word) :
    fieldOf? other.toList (field.key suffix) = none :=
  fieldOf?_eq_none (not_suffix_key hsuffix hother hne field)

theorem key_ne_nil (field : Word) (suffix : String) : field.key suffix ≠ [] :=
  List.append_ne_nil_of_left_ne_nil field.ne _

theorem all_isWord_keyEnding :
    ∀ suffix ∈ keySuffixes, (keyEnding suffix).all isWord = true := by
  decide +kernel

theorem isWord_key {suffix : String} (hsuffix : suffix ∈ keySuffixes) (field : Word) :
    ∀ c ∈ field.key suffix, isWord c = true := by
  intro c hc
  rcases List.mem_append.mp hc with hc | hc
  · exact field.isWord_of_mem hc
  · exact List.all_eq_true.mp (all_isWord_keyEnding suffix hsuffix) c hc

theorem Scalar.suffix_mem (scalar : Scalar) : scalar.suffix ∈ keySuffixes := by
  rcases scalar with (_ | _) | (_ | _) | (_ | _) <;> decide

theorem Membership.suffix_mem (membership : Membership) : membership.suffix ∈ keySuffixes :=
  (Scalar.member membership).suffix_mem

theorem between_mem : Operator.betweenSuffix ∈ keySuffixes := by decide

theorem Scalar.suffix_injective {scalar other : Scalar} (h : scalar.suffix = other.suffix) :
    scalar = other := by
  have hall : ∀ scalar ∈ Scalar.all, ∀ other ∈ Scalar.all,
      scalar.suffix = other.suffix → scalar = other := by decide +kernel
  have hmem (s : Scalar) : s ∈ Scalar.all := by
    rcases s with (_ | _) | (_ | _) | (_ | _) <;> decide
  exact hall scalar (hmem scalar) other (hmem other) h

theorem Scalar.suffix_ne_between (scalar : Scalar) : scalar.suffix ≠ Operator.betweenSuffix := by
  rcases scalar with (_ | _) | (_ | _) | (_ | _) <;> decide

/-! ## Values -/

theorem PlainText.quote_append (text : PlainText) (rest : List Char) :
    text.quote ++ rest = '"' :: (text.chars ++ '"' :: rest) := by
  simp [PlainText.quote]

theorem PlainText.notMem_quote (text : PlainText) {c : Char} (hquote : c ≠ '"')
    (hc : c ∉ text.chars) : c ∉ text.quote := by
  simp [PlainText.quote, hquote, hc]

/-- A character of no element, quote or separator is not in a list. -/
theorem notMem_listBody {first : Element} {others : List Element} {c : Char}
    (hseparator : c ∉ ", ".toList) (hquote : c ≠ '"') (h : ∀ element : Element, c ∉ element.chars) :
    c ∉ listBody first others :=
  notMem_intercalate hseparator fun element _ => element.notMem_quote hquote (h element)

theorem quoted_quote (text : PlainText) (rest : List Char) :
    quoted (text.quote ++ rest) = some (text.chars, rest) := by
  have hquote : '"' ∉ text.chars := fun hmem => (text.ne_of_mem hmem).1 rfl
  rw [text.quote_append]
  exact enclosed?_append '"' hquote rest

theorem dropSpace_quote (text : PlainText) (rest : List Char) :
    dropSpace (' ' :: (text.quote ++ rest)) = text.quote ++ rest := by
  rw [dropSpace_blank, text.quote_append, dropSpace_cons (by decide)]

theorem labelled_quote (keyword : String) (text : PlainText) (rest : List Char) :
    labelled keyword (keyword.toList ++ ':' :: ' ' :: (text.quote ++ rest)) =
      some (text.chars, rest) := by
  have hafter := after?_append (keyword.toList ++ [':']) (' ' :: (text.quote ++ rest))
  rw [List.append_assoc, List.singleton_append] at hafter
  rw [labelled, hafter]
  show quoted (dropSpace (' ' :: (text.quote ++ rest))) = some (text.chars, rest)
  rw [dropSpace_quote, quoted_quote]

/-- The bounds of a canonical range. -/
theorem bounds_range (low high : PlainText) (rest : List Char) :
    bounds (dropSpace (rangeBody low high ++ rest)) = some ((low.chars, high.chars), rest) := by
  have hhigh := labelled_quote "highValue" high rest
  have hlow := labelled_quote "value" low
    (',' :: ' ' :: ("highValue".toList ++ ':' :: ' ' :: (high.quote ++ rest)))
  have htext : dropSpace (rangeBody low high ++ rest) = '\x7b' :: ' ' :: ("value".toList ++ ':' ::
      ' ' :: (low.quote ++ ',' :: ' ' :: ("highValue".toList ++ ':' :: ' ' :: (high.quote ++
        rest)))) := by
    simp [rangeBody, dropSpace_blank, dropSpace_cons (c := '\x7b') (by decide)]
  rw [htext, bounds]
  show (labelled "value" ("value".toList ++ ':' :: ' ' :: (low.quote ++ ',' :: ' ' ::
    ("highValue".toList ++ ':' :: ' ' :: (high.quote ++ rest))))).bind _ = _
  rw [hlow]
  show (labelled "highValue" ("highValue".toList ++ ':' :: ' ' :: (high.quote ++ rest))).bind _ = _
  rw [hhigh]
  rfl

/-- The body of a canonical list. -/
theorem bracketed_list (first : Element) (others : List Element) (rest : List Char) :
    bracketed (dropSpace (' ' :: '[' :: (listBody first others ++ [']']) ++ rest)) =
      some (listBody first others, rest) := by
  have hbracket : ']' ∉ listBody first others :=
    notMem_listBody (by decide) (by decide) fun element => element.no_bracket
  have henclosed := enclosed?_append '[' hbracket rest
  rw [List.cons_append, dropSpace_blank, List.cons_append, dropSpace_cons (by decide),
    List.append_assoc]
  exact henclosed

/-! ## Elements of a list -/

theorem Element.isElement (element : Element) : IsElement element.chars where
  no_comma := element.no_comma
  no_quote hmem := (element.ne_of_mem hmem).1 rfl
  trimmed :=
    { first := fun c hc => by simpa [Option.mem_def.mp hc] using element.no_space_before
      last := fun c hc => by simpa [Option.mem_def.mp hc] using element.no_space_after }

/-- An element in quotes is a written one, also behind a blank. -/
theorem Element.written (element : Element) {gap : List Char} (hgap : isBlank gap = true) :
    Written element.chars (gap ++ element.quote) := by
  have hquoted : Written element.chars
      (gap ++ ('"' :: ([] ++ (element.chars ++ []) ++ ['"']) ++ [])) := .quoted hgap rfl rfl rfl
  simpa [PlainText.quote] using hquoted

theorem splitList_listBody (first : Element) (others : List Element) :
    splitList (listBody first others) =
      (first :: others).map fun element => String.ofList element.chars := by
  -- what stands between two quoted elements is the comma and a blank of the element behind it
  have hbody : listBody first others =
      [','].intercalate (first.quote :: others.map fun other => [' '] ++ other.quote) := by
    have hlisted := intercalate_append_cons ", ".toList first.quote [] (others.map (·.quote))
    have hparts := intercalate_append_cons [','] first.quote []
      (others.map fun other => [' '] ++ other.quote)
    rw [List.nil_append, List.flatMap_map] at hlisted hparts
    exact hlisted.trans hparts.symm
  have hothers : List.Forall₂ Written (others.map (·.chars))
      (others.map fun other => [' '] ++ other.quote) :=
    List.forall₂_map_left_iff.mpr (List.forall₂_map_right_iff.mpr
      (List.forall₂_same.mpr fun other _ => other.written (by decide)))
  have hfirst : Written first.chars first.quote := @Element.written first [] rfl
  have helements : ∀ element ∈ (first :: others).map (·.chars), IsElement element :=
    List.forall_mem_map.mpr fun element _ => element.isElement
  calc splitList (listBody first others)
      = ((first :: others).map (·.chars)).map String.ofList := by
        rw [hbody]
        exact splitList_written (List.cons_ne_nil _ _) helements (.cons hfirst hothers)
    _ = (first :: others).map fun element => String.ofList element.chars := List.map_map

/-! ## What the tokens of a clause yield -/

section Yields

variable {α : Type} {form : ValueForm α} {suffix other : String}

theorem yields_blank (hform : Shrinks form) : Yields suffix form [' '] [] :=
  yields_plain hform (q := []) List.not_mem_nil (by decide) (by decide)

theorem yields_quote (hform : Shrinks form) (text : PlainText) :
    Yields suffix form (' ' :: text.quote) [] := by
  have hcolon : ':' ∉ text.chars := fun hmem => (text.ne_of_mem hmem).2.2.2 rfl
  have hq : ':' ∉ ' ' :: '"' :: text.chars := by simp [hcolon]
  exact yields_plain hform hq (c := '"') (by decide) (by decide)

theorem yields_listBody (hform : Shrinks form) (first : Element) (others : List Element) :
    Yields suffix form (' ' :: '[' :: (listBody first others ++ [']'])) [] := by
  have hq : ':' ∉ ' ' :: '[' :: listBody first others := by
    have hbody : ':' ∉ listBody first others := notMem_listBody (by decide) (by decide)
      fun element hmem => (element.ne_of_mem hmem).2.2.2 rfl
    simp [hbody]
  exact yields_plain hform hq (c := ']') (by decide) (by decide)

/-- The names of the bounds are no keys. -/
theorem fieldOf?_bound : ∀ suffix ∈ keySuffixes,
    fieldOf? suffix.toList "value".toList = none ∧
      fieldOf? suffix.toList "highValue".toList = none := by
  decide +kernel

theorem yields_rangeBody (hform : Shrinks form) (hsuffix : suffix ∈ keySuffixes)
    (low high : PlainText) :
    Yields suffix form (rangeBody low high) [] := by
  obtain ⟨hvalue, hhighValue⟩ := fieldOf?_bound suffix hsuffix
  have hopen : Yields suffix form (" \x7b".toList ++ [' ']) [] :=
    yields_plain hform (by decide) (by decide) (by decide)
  have hlow : Yields suffix form ("value".toList ++ [':']) [] :=
    yields_label hform (by decide) (List.all_eq_true.mp (by decide)) hvalue
  have hcomma : Yields suffix form (",".toList ++ [' ']) [] :=
    yields_plain hform (by decide) (by decide) (by decide)
  have hhigh : Yields suffix form ("highValue".toList ++ [':']) [] :=
    yields_label hform (by decide) (List.all_eq_true.mp (by decide)) hhighValue
  have hall := ((((hopen.append hlow).append (yields_quote hform low)).append hcomma).append
    hhigh).append (yields_quote hform high)
  simpa [rangeBody] using hall

/-- A token with a key of another suffix, or with a value of another form, yields nothing. -/
theorem yields_foreign (hform : Shrinks form) (hsuffix : suffix ∈ keySuffixes)
    (hother : other ∈ keySuffixes) (field : Word) {body : List Char}
    (hbody : Yields other form body [])
    (hvalue : suffix = other → ∀ rest, form (dropSpace (body ++ rest)) = none) :
    Yields other form (field.key suffix ++ ':' :: body) [] := by
  have hword := isWord_key hsuffix field
  by_cases hsame : suffix = other
  · exact yields_otherForm hform (key_ne_nil field suffix) hword (hvalue hsame) hbody
  · -- the key has no field for the other suffix, so it is passed over as a label
    have hlabel : Yields other form (field.key suffix ++ [':']) [] :=
      yields_label hform (key_ne_nil field suffix) hword
        (fieldOf?_otherKey hsuffix hother hsame field)
    simpa using hlabel.append hbody

end Yields

/-! ## The scan for each kind -/

namespace QueryToken

/-- What the scan for an operator with a single value finds in a token. -/
def scalarTokens (operator : Scalar) : QueryToken → List (Token (List Char))
  | scalar field own value => if own = operator then [⟨field.chars, value.chars⟩] else []
  | list _ _ _ _ | range _ _ _ => []

/-- What the scan for a membership operator finds in a token. -/
def listTokens (membership : Membership) : QueryToken → List (Token (List Char))
  | list field own first others =>
    if own = membership then [⟨field.chars, listBody first others⟩] else []
  | scalar _ _ _ | range _ _ _ => []

/-- What the scan for ranges finds in a token. -/
def rangeTokens : QueryToken → List (Token (List Char × List Char))
  | range field low high => [⟨field.chars, (low.chars, high.chars)⟩]
  | scalar _ _ _ | list _ _ _ _ => []

theorem shrinks_quoted : Shrinks quoted := shrinks_enclosed '"' '"'

theorem shrinks_bracketed : Shrinks bracketed := shrinks_enclosed '[' ']'

theorem yields_scalarTokens (operator : Scalar) (token : QueryToken) :
    Yields operator.suffix quoted token.openText (token.scalarTokens operator) := by
  have hsuffix := operator.suffix_mem
  cases token with
  | scalar field own value =>
    by_cases hown : own = operator
    · subst hown
      rw [scalarTokens, if_pos rfl]
      refine yields_token shrinks_quoted (key_ne_nil field _) (isWord_key hsuffix field)
        (fieldOf?_key field _) fun rest => ?_
      rw [List.cons_append, dropSpace_quote, quoted_quote]
    · rw [scalarTokens, if_neg hown]
      exact yields_foreign shrinks_quoted own.suffix_mem hsuffix field
        (yields_quote shrinks_quoted value) fun hsame => absurd (Scalar.suffix_injective hsame) hown
  | list field membership first others =>
    exact yields_foreign shrinks_quoted membership.suffix_mem hsuffix field
      (yields_listBody shrinks_quoted first others) fun _ rest => rfl
  | range field low high =>
    exact yields_foreign shrinks_quoted between_mem hsuffix field
      (yields_rangeBody shrinks_quoted hsuffix low high)
      fun hsame => absurd hsame.symm operator.suffix_ne_between

theorem yields_rangeTokens (token : QueryToken) :
    Yields Operator.betweenSuffix bounds token.openText token.rangeTokens := by
  cases token with
  | scalar field own value =>
    exact yields_foreign shrinks_bounds own.suffix_mem between_mem field
      (yields_quote shrinks_bounds value) fun hsame => absurd hsame own.suffix_ne_between
  | list field membership first others =>
    exact yields_foreign shrinks_bounds membership.suffix_mem between_mem field
      (yields_listBody shrinks_bounds first others)
      fun hsame => absurd hsame (Scalar.member membership).suffix_ne_between
  | range field low high =>
    exact yields_token shrinks_bounds (key_ne_nil field _) (isWord_key between_mem field)
      (fieldOf?_key field _) (bounds_range low high)

theorem yields_listTokens (membership : Membership) (token : QueryToken) :
    Yields membership.suffix bracketed token.openText (token.listTokens membership) := by
  have hsuffix := membership.suffix_mem
  cases token with
  | scalar field own value =>
    refine yields_foreign shrinks_bracketed own.suffix_mem hsuffix field
      (yields_quote shrinks_bracketed value) fun _ rest => ?_
    rw [List.cons_append, dropSpace_quote, value.quote_append]
    exact enclosed?_of_ne (by decide) _
  | list field own first others =>
    by_cases hown : own = membership
    · subst hown
      rw [listTokens, if_pos rfl]
      exact yields_token shrinks_bracketed (key_ne_nil field _) (isWord_key hsuffix field)
        (fieldOf?_key field _) (bracketed_list first others)
    · rw [listTokens, if_neg hown]
      refine yields_foreign shrinks_bracketed own.suffix_mem hsuffix field
        (yields_listBody shrinks_bracketed first others) fun hsame => absurd ?_ hown
      exact Scalar.member.inj (Scalar.suffix_injective hsame)
  | range field low high =>
    exact yields_foreign shrinks_bracketed between_mem hsuffix field
      (yields_rangeBody shrinks_bracketed hsuffix low high)
      fun hsame => absurd hsame.symm (Scalar.member membership).suffix_ne_between

end QueryToken

/-! ## The predicates of a clause -/

/-- The text between the braces of a canonical clause. -/
def clauseText (tokens : List QueryToken) : List Char :=
  ' ' :: (", ".toList.intercalate (tokens.map (·.openText)) ++ [' '])

/-- The tokens that a scan finds in a clause are those that it finds in each token of it. -/
theorem tokens_clauseText {α : Type} {form : ValueForm α} (hform : Shrinks form) {suffix : String}
    {own : QueryToken → List (Token α)} (tokens : List QueryToken)
    (h : ∀ token : QueryToken, Yields suffix form token.openText (own token)) :
    Query.tokens suffix form (clauseText tokens) = tokens.flatMap own := by
  have hseparator : Yields suffix form ", ".toList [] :=
    yields_plain hform (q := [',']) (by decide) (c := ' ') (by decide) (by decide)
  have hpieces : Yields suffix form (", ".toList.intercalate (tokens.map (·.openText)))
      (tokens.flatMap own) := .intercalate hseparator fun token _ => h token
  have hall := ((yields_blank hform).append hpieces).append (yields_blank hform)
  rw [List.nil_append, List.append_nil] at hall
  exact hall.tokens

/-- The predicates of the tokens of a kind. -/
def predicatesOf (kind : TokenKind) (tokens : List QueryToken) : List Predicate :=
  (tokens.filter fun token => token.kind = kind).map (·.predicate)

theorem predicatesOf_cons (kind : TokenKind) (token : QueryToken) (tokens : List QueryToken) :
    predicatesOf kind (token :: tokens) =
      (if token.kind = kind then [token.predicate] else []) ++ predicatesOf kind tokens := by
  by_cases h : token.kind = kind <;> simp [predicatesOf, h]

/-- The predicates of a kind are gathered token by token. -/
theorem flatMap_eq_predicatesOf {kind : TokenKind} {own : QueryToken → List Predicate}
    (h : ∀ token, own token = if token.kind = kind then [token.predicate] else [])
    (tokens : List QueryToken) : tokens.flatMap own = predicatesOf kind tokens := by
  induction tokens with
  | nil => rfl
  | cons token tokens ih => rw [List.flatMap_cons, ih, h, predicatesOf_cons]

theorem scalarPredicates_clauseText (operator : Scalar) (tokens : List QueryToken) :
    scalarPredicates operator.suffix operator.operator (clauseText tokens) =
      predicatesOf (.scalar operator) tokens := by
  rw [scalarPredicates, tokens_clauseText QueryToken.shrinks_quoted tokens
    (QueryToken.yields_scalarTokens operator), List.filterMap_flatMap]
  refine flatMap_eq_predicatesOf (fun token => ?_) tokens
  cases token with
  | scalar field own value =>
    by_cases hown : own = operator
    · subst hown
      simp [QueryToken.scalarTokens, QueryToken.kind, QueryToken.predicate,
        Scalar.ofScalar?_operator]
    · simp [QueryToken.scalarTokens, QueryToken.kind, hown]
  | list field membership first others => rfl
  | range field low high => rfl

theorem listPredicates_clauseText (membership : Membership) (tokens : List QueryToken) :
    listPredicates membership.suffix membership (clauseText tokens) =
      predicatesOf (.list membership) tokens := by
  rw [listPredicates, tokens_clauseText QueryToken.shrinks_bracketed tokens
    (QueryToken.yields_listTokens membership), List.map_flatMap]
  refine flatMap_eq_predicatesOf (fun token => ?_) tokens
  cases token with
  | scalar field own value => rfl
  | list field own first others =>
    by_cases hown : own = membership
    · subst hown
      simp [QueryToken.listTokens, QueryToken.kind, QueryToken.predicate, splitList_listBody]
    · simp [QueryToken.listTokens, QueryToken.kind, hown]
  | range field low high => rfl

/-- Only the last token of a clause can be a range. -/
theorem rangePredicate?_clauseText {tokens : List QueryToken}
    (hlast : ∀ token ∈ tokens.dropLast, token.kind ≠ .range) :
    (rangePredicate? (clauseText tokens)).toList = predicatesOf .range tokens := by
  rw [rangePredicate?, tokens_clauseText shrinks_bounds tokens QueryToken.yields_rangeTokens]
  induction tokens with
  | nil => rfl
  | cons token tokens ih =>
    rw [List.flatMap_cons, predicatesOf_cons]
    cases tokens with
    | nil => cases token <;> rfl
    | cons next tokens =>
      rw [List.dropLast_cons_cons, List.forall_mem_cons] at hlast
      -- a token in front of another is no range, so the first range is that of the others
      rw [if_neg hlast.1, List.nil_append, ← ih hlast.2]
      cases token with
      | scalar field own value => rfl
      | list field membership first others => rfl
      | range field low high => exact absurd rfl hlast.1

/-- A canonical clause has the predicates of its tokens, kind by kind. -/
theorem clausePredicates_clauseText {tokens : List QueryToken}
    (hlast : ∀ token ∈ tokens.dropLast, token.kind ≠ .range) :
    clausePredicates (clauseText tokens) =
      TokenKind.all.flatMap fun kind => predicatesOf kind tokens := by
  rw [clausePredicates, rangePredicate?_clauseText hlast, Scalar.suffixTable_eq, List.flatMap_map]
  simp only [scalarPredicates_clauseText]
  -- the table of list suffixes is the two membership operators in their order
  have hlists : (Operator.listSuffixes.flatMap fun entry =>
      listPredicates entry.1 entry.2 (clauseText tokens)) =
        predicatesOf (.list .inList) tokens ++ predicatesOf (.list .notInList) tokens := by
    rw [← listPredicates_clauseText, ← listPredicates_clauseText]
    simp [Operator.listSuffixes, Membership.suffix]
  rw [hlists]
  simp [TokenKind.all, List.flatMap_map]

end SearchGateway.Query
