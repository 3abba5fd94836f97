/-
  SearchGateway.Proofs.QuotedValues

  What the values of a filter clause do to its predicates.  No scan keeps track of
  quotes, so a value that ends like a key is taken for one, with the text up to the
  next quote as its value.  Where no token of another kind starts inside a value, the
  fields and operators that are read off a clause do not depend on the values in it.
-/
import SearchGateway.Proofs.Occurrences

namespace SearchGateway.Query

open SearchGateway.Text

/-! ## Clauses of scalar tokens -/

/-- A scalar token of a clause with a value that can stand between quotes there. -/
structure QuotedToken where
  field : Word
  operator : Scalar
  value : List Char
  no_quote : '"' ∉ value
  no_brace : '\x7d' ∉ value

namespace QuotedToken

def kind (token : QuotedToken) : TokenKind := .scalar token.operator

/-- A token up to the quote that opens its value. -/
def front (token : QuotedToken) : List Char :=
  token.field.key token.kind.suffix ++ [':', ' ', '"']

def text (token : QuotedToken) : List Char :=
  token.front ++ (token.value ++ ['"'])

def predicate (token : QuotedToken) : Predicate :=
  ⟨String.ofList token.field.chars, token.operator.condition (String.ofList token.value)⟩

/-- A token without its value. -/
def label (token : QuotedToken) : Word × Scalar := (token.field, token.operator)

end QuotedToken

/-- The text between the braces of a clause. -/
def quotedClause (tokens : List QuotedToken) : List Char :=
  ' ' :: (", ".toList.intercalate (tokens.map (·.text)) ++ [' '])

/-- A filter clause of scalar tokens. -/
def filterText (tokens : List QuotedToken) : String :=
  String.ofList ("filter: \x7b".toList ++ (quotedClause tokens ++ ['\x7d']))

/-- The text of a clause behind one of its tokens, with the tokens that follow it. -/
def textBehind (tokens : List QuotedToken) : List Char :=
  tokens.flatMap (fun token => ',' :: ' ' :: token.text) ++ [' ']

/-! ## Quiet clauses -/

/-- A clause is quiet if every token that starts inside one of its values is of the kind of the
    value. -/
def Quiet (tokens : List QuotedToken) : Prop :=
  ∀ before token others, tokens = before ++ token :: others →
    ∀ kind place, kind.Stands (token.value ++ '"' :: textBehind others) place →
      place.start < token.value.length → kind = token.kind

/-- A token that starts in a value has its key and the colon in the value. -/
theorem TokenKind.Stands.infix_of_lt {kind : TokenKind} {value rest : List Char} {place : Place}
    (h : kind.Stands (value ++ '"' :: rest) place) (hlt : place.start < value.length) :
    keyEnding kind.suffix ++ [':'] <:+: value := by
  have hfront : kind.Stands ([] ++ (value ++ '"' :: rest)) place := h
  obtain ⟨skipped, gap, text, behind, field, condition, heq, -, -, -, rfl⟩ :=
    hfront.behind (Nat.zero_le _)
  replace hlt : skipped.length < value.length := by simpa using hlt
  have hkey : skipped ++ (field.key kind.suffix ++ [':']) <+: value ++ '"' :: rest :=
    ⟨gap ++ (text ++ behind), by simpa using heq.symm⟩
  have hending : keyEnding kind.suffix ++ [':'] <:+ skipped ++ (field.key kind.suffix ++ [':']) :=
    ⟨skipped ++ field.chars, by simp [Word.key, keyEnding]⟩
  rcases List.prefix_or_prefix_of_prefix hkey (List.prefix_append value _) with hinside |
    ⟨beyond, hbeyond⟩
  · exact hending.isInfix.trans hinside.isInfix
  · cases beyond with
    | nil =>
      rw [← hbeyond, List.append_nil] at hending
      exact hending.isInfix
    | cons c beyond =>
      -- the quote behind the value would be a character of the key or its colon
      obtain rfl : c = '"' := by
        rw [← hbeyond, List.prefix_append_right_inj] at hkey
        exact (List.cons_prefix_cons.mp hkey).1
      have hbehind : '"' :: beyond <:+ skipped ++ (field.key kind.suffix ++ [':']) := ⟨value, hbeyond⟩
      have hlength : ('"' :: beyond).length ≤ (field.key kind.suffix ++ [':']).length := by
        have hlengths := congrArg List.length hbeyond
        simp only [List.length_append, List.length_cons] at hlengths ⊢
        omega
      have hlabel := List.suffix_of_suffix_length_le hbehind (List.suffix_append _ _) hlength
      rcases List.mem_append.mp (hlabel.subset List.mem_cons_self) with hmem | hmem
      · exact absurd (isWord_key kind.suffix_mem field _ hmem) (by decide)
      · exact absurd hmem (by decide)

/-- A clause is quiet if no key with a colon behind it is in its values. -/
theorem quiet_of_no_key {tokens : List QuotedToken}
    (h : ∀ token ∈ tokens, ∀ suffix ∈ keySuffixes,
      ¬ keyEnding suffix ++ [':'] <:+: token.value) : Quiet tokens := by
  intro before token others heq kind place hplace hlt
  have hmem : token ∈ tokens := by simp [heq]
  exact absurd (hplace.infix_of_lt hlt) (h token hmem kind.suffix kind.suffix_mem)

theorem Quiet.value_le {token : QuotedToken} {others : List QuotedToken}
    (h : Quiet (token :: others)) {kind : TokenKind} (hkind : kind ≠ token.kind) {place : Place}
    (hplace : kind.Stands (token.value ++ '"' :: textBehind others) place) :
    token.value.length ≤ place.start :=
  Nat.le_of_not_lt fun hlt => hkind (h [] token others rfl kind place hplace hlt)

theorem Quiet.tail {token : QuotedToken} {others : List QuotedToken}
    (h : Quiet (token :: others)) : Quiet others := by
  intro before next behind heq
  exact h (token :: before) next behind (by rw [heq, List.cons_append])

/-! ## The scan of a quiet clause -/

/-- The predicates of the tokens of a kind. -/
def ownPredicates (kind : TokenKind) (tokens : List QuotedToken) : List Predicate :=
  (tokens.filter fun token => token.kind = kind).map (·.predicate)

theorem ownPredicates_cons (kind : TokenKind) (token : QuotedToken) (tokens : List QuotedToken) :
    ownPredicates kind (token :: tokens) =
      (if token.kind = kind then [token.predicate] else []) ++ ownPredicates kind tokens := by
  by_cases h : token.kind = kind <;> simp [ownPredicates, h]

theorem reported_cons (kind : TokenKind) {c : Char} (hc : isWord c = false) (cs : List Char) :
    reported kind (c :: cs) = reported kind cs := by
  rw [reported, tokens_cons _ hc, reported]

namespace QuotedToken

theorem text_append (token : QuotedToken) (rest : List Char) :
    token.text ++ rest = token.front ++ (token.value ++ '"' :: rest) := by
  rw [text, List.append_assoc, List.append_assoc]
  rfl

theorem text_append_eq_key (token : QuotedToken) (rest : List Char) :
    token.text ++ rest = token.field.key token.kind.suffix ++
      ':' :: ([' '] ++ ('"' :: (token.value ++ ['"']) ++ rest)) := by
  simp [text, front]

theorem writes (token : QuotedToken) :
    token.kind.Writes ('"' :: (token.value ++ ['"']))
      (token.operator.condition (String.ofList token.value)) :=
  .scalar ⟨rfl, token.no_quote⟩

theorem endsInWord_text (token : QuotedToken) : endsInWord false token.text = false := by
  rw [text, ← List.append_assoc, endsInWord_concat]
  decide

/-- The scan for the kind of a token finds it. -/
theorem reported_own (token : QuotedToken) (rest : List Char) :
    reported token.kind (token.text ++ rest) = token.predicate :: reported token.kind rest := by
  rw [token.text_append_eq_key, reported_token token.field (by decide) token.writes]
  rfl

theorem stands (token : QuotedToken) (rest : List Char) :
    ∃ stop, token.kind.Stands (token.text ++ rest) ⟨0, stop, token.predicate⟩ :=
  ⟨_, @TokenKind.Stands.intro token.kind _ [] [' '] _ rest token.field _
    (token.text_append_eq_key rest) rfl (by decide) token.writes⟩

/-- A token of another kind does not start before the value. -/
theorem front_le {token : QuotedToken} {kind : TokenKind} {rest : List Char} {place : Place}
    (hkind : kind ≠ token.kind) (h : kind.Stands (token.text ++ rest) place) :
    token.front.length ≤ place.start := by
  have hkey : place.start ≠ 0 := fun hstart =>
    have ⟨_, hown⟩ := token.stands rest
    hkind (h.eq_of_start hown hstart).1
  -- the characters between the key and the value begin no key
  have hword : kind.Stands ([] ++ (token.field.key token.kind.suffix ++
      ':' :: ' ' :: '"' :: (token.value ++ '"' :: rest))) place := by
    simpa [text_append, front] using h
  have hblank : kind.Stands ((token.field.key token.kind.suffix ++ [':']) ++
      ' ' :: '"' :: (token.value ++ '"' :: rest)) place := by
    simpa using hword
  have hquote : kind.Stands ((token.field.key token.kind.suffix ++ [':', ' ']) ++
      '"' :: (token.value ++ '"' :: rest)) place := by
    simpa using hword
  have hlt := (hword.eq_or_lt (isWord_key token.kind.suffix_mem token.field)
    (Nat.zero_le _)).resolve_left hkey
  have hne := hblank.start_ne (by decide)
  have hne' := hquote.start_ne (by decide)
  simp only [front, List.length_append, List.length_cons, List.length_nil] at hlt hne hne' ⊢
  omega

/-- The scan for another kind passes over a token if no token of the kind starts in its value. -/
theorem reported_other {token : QuotedToken} {kind : TokenKind} {rest : List Char}
    (hkind : kind ≠ token.kind)
    (hvalue : ∀ place, kind.Stands (token.value ++ '"' :: rest) place →
      token.value.length ≤ place.start) :
    reported kind (token.text ++ rest) = reported kind rest := by
  refine reported_append token.endsInWord_text fun place hplace => ?_
  have hfront := front_le hkind hplace
  have houtside : endsInWord false token.front = false := by
    rw [front, endsInWord_append, endsInWord_cons]
    decide
  rw [token.text_append] at hplace
  obtain ⟨place', hplace', hstart⟩ := hplace.drop houtside hfront
  have hle := hvalue place' hplace'
  have hne := hplace'.start_ne (by decide)
  simp only [text, List.length_append, List.length_cons, List.length_nil]
  omega

end QuotedToken

/-- What a scan finds in the first token of a quiet clause, and behind it. -/
theorem reported_text (kind : TokenKind) {token : QuotedToken} {others : List QuotedToken}
    (h : Quiet (token :: others)) :
    reported kind (token.text ++ textBehind others) =
      (if token.kind = kind then [token.predicate] else []) ++ reported kind (textBehind others) := by
  by_cases hkind : token.kind = kind
  · subst hkind
    rw [if_pos rfl, token.reported_own]
    rfl
  · rw [if_neg hkind, List.nil_append]
    exact QuotedToken.reported_other (Ne.symm hkind) fun place hplace =>
      h.value_le (Ne.symm hkind) hplace

theorem textBehind_cons (token : QuotedToken) (others : List QuotedToken) :
    textBehind (token :: others) = ',' :: ' ' :: (token.text ++ textBehind others) := by
  simp [textBehind]

/-- A scan finds the tokens of its kind and no others. -/
theorem reported_textBehind (kind : TokenKind) {tokens : List QuotedToken} (h : Quiet tokens) :
    reported kind (textBehind tokens) = ownPredicates kind tokens := by
  induction tokens with
  | nil => exact reported_cons kind (c := ' ') (by decide) []
  | cons token others ih =>
    rw [textBehind_cons, reported_cons kind (by decide), reported_cons kind (by decide),
      reported_text kind h, ih h.tail, ownPredicates_cons]

theorem reported_quotedClause (kind : TokenKind) {tokens : List QuotedToken} (h : Quiet tokens) :
    reported kind (quotedClause tokens) = ownPredicates kind tokens := by
  cases tokens with
  | nil =>
    show reported kind [' ', ' '] = []
    rw [reported_cons kind (by decide), reported_cons kind (by decide)]
    rfl
  | cons token others =>
    have hclause : quotedClause (token :: others) = ' ' :: (token.text ++ textBehind others) := by
      have hparts := intercalate_append_cons ", ".toList token.text [] (others.map (·.text))
      simp only [List.nil_append, List.flatMap_nil] at hparts
      rw [quotedClause, List.map_cons, hparts]
      simp [textBehind, List.flatMap_map]
    rw [hclause, reported_cons kind (by decide), reported_text kind h,
      reported_textBehind kind h.tail, ownPredicates_cons]

/-! ## The predicates of a quiet clause -/

theorem brace_notMem_quotedClause (tokens : List QuotedToken) : '\x7d' ∉ quotedClause tokens := by
  have htext (token : QuotedToken) : '\x7d' ∉ token.text := by
    have hkey : '\x7d' ∉ token.field.key token.kind.suffix := fun hmem =>
      absurd (isWord_key token.kind.suffix_mem token.field _ hmem) (by decide)
    simp [QuotedToken.text, QuotedToken.front, hkey, token.no_brace]
  have htokens : '\x7d' ∉ ", ".toList.intercalate (tokens.map (·.text)) :=
    notMem_intercalate (by decide) fun token _ => htext token
  rw [quotedClause]
  simpa using htokens

theorem extract_filterText_eq (tokens : List QuotedToken) :
    extract (filterText tokens) = clausePredicates (quotedClause tokens) := by
  have hbraces (inside : List Char) :
      "filter: \x7b".toList ++ inside = "filter:".toList ++ (' ' :: '\x7b' :: inside) := by
    simp
  have henclosed := enclosed?_append '\x7b' (brace_notMem_quotedClause tokens) []
  have hhere : clauseHere? ("filter: \x7b".toList ++ (quotedClause tokens ++ ['\x7d'])) =
      some (quotedClause tokens) := by
    rw [hbraces, clauseHere?, after?_append]
    show (enclosed? '\x7b' '\x7d' (dropSpace _)).bind _ = _
    rw [dropSpace_blank, dropSpace_cons (by decide), henclosed]
    rfl
  unfold filterText
  rw [extract, String.toList_ofList, firstMatch_here hhere]

theorem kept_ownPredicates (kind : TokenKind) (tokens : List QuotedToken) :
    kind.kept (ownPredicates kind tokens) = ownPredicates kind tokens := by
  cases kind with
  | range =>
    -- no scalar token is a range
    have hnone : ownPredicates .range tokens = [] := by
      simp [ownPredicates, QuotedToken.kind]
    rw [hnone]
    rfl
  | scalar | list => rfl

/-- The predicates of a quiet clause are those of its tokens, kind by kind. -/
theorem extract_filterText {tokens : List QuotedToken} (h : Quiet tokens) :
    extract (filterText tokens) = TokenKind.all.flatMap fun kind => ownPredicates kind tokens := by
  rw [extract_filterText_eq, clausePredicates_eq]
  simp only [reported_quotedClause _ h, kept_ownPredicates]

/-- A predicate without its values. -/
def Predicate.label (predicate : Predicate) : String × Operator :=
  (predicate.property, predicate.condition.operator)

/-- The labels of the predicates of a kind are read off the labels of the tokens. -/
theorem map_label_ownPredicates (kind : TokenKind) (tokens : List QuotedToken) :
    (ownPredicates kind tokens).map Predicate.label =
      ((tokens.map (·.label)).filter fun label => TokenKind.scalar label.2 = kind).map
        fun label => (String.ofList label.1.chars, label.2.operator) := by
  have hlabel (token : QuotedToken) : token.predicate.label =
      (String.ofList token.label.1.chars, token.label.2.operator) := by
    obtain ⟨field, operator, value, -, -⟩ := token
    cases operator <;> rfl
  simp only [ownPredicates, List.map_map, List.filter_map, Function.comp_def, hlabel]
  rfl

/-- Two quiet clauses that differ only in their values have predicates that differ only in their
    values. -/
theorem extract_labels_eq {tokens tokens' : List QuotedToken}
    (hlabels : tokens.map (·.label) = tokens'.map (·.label)) (h : Quiet tokens)
    (h' : Quiet tokens') :
    (extract (filterText tokens)).map Predicate.label =
      (extract (filterText tokens')).map Predicate.label := by
  simp only [extract_filterText h, extract_filterText h', List.map_flatMap,
    map_label_ownPredicates, hlabels]

/-- Values with colons, brackets and braces in them, and with half a token. -/
theorem extract_labels_eq_half_tokens :
    let a : Word := ⟨['a'], by decide, by decide⟩
    let b : Word := ⟨['b'], by decide, by decide⟩
    let tokens : List QuotedToken :=
      [⟨a, .compare .equal, "at 10:30, b__neq".toList, by decide, by decide⟩,
        ⟨b, .compare .notEqual, [], by decide, by decide⟩]
    let tokens' : List QuotedToken :=
      [⟨a, .compare .equal, "x__in [\x7by".toList, by decide, by decide⟩,
        ⟨b, .compare .notEqual, ", eq: ".toList, by decide, by decide⟩]
    (tokens.map (·.label) = tokens'.map (·.label) ∧ Quiet tokens ∧ Quiet tokens') ∧
      (extract (filterText tokens)).map Predicate.label =
        (extract (filterText tokens')).map Predicate.label := by
  intro a b tokens tokens'
  have hlabels : tokens.map (·.label) = tokens'.map (·.label) := rfl
  have hquiet : Quiet tokens := quiet_of_no_key (by decide +kernel)
  have hquiet' : Quiet tokens' := quiet_of_no_key (by decide +kernel)
  exact ⟨⟨hlabels, hquiet, hquiet'⟩, extract_labels_eq hlabels hquiet hquiet'⟩

/-- A value can add a predicate and hide another one: it ends like a key, so the quote that closes it
    opens the value of that key, which goes up to the next quote. -/
theorem extract_labels_ne :
    let a : Word := ⟨['a'], by decide, by decide⟩
    let b : Word := ⟨['b'], by decide, by decide⟩
    let plain : List QuotedToken :=
      [⟨a, .compare .equal, ['x'], by decide, by decide⟩,
        ⟨b, .compare .notEqual, ['y'], by decide, by decide⟩]
    let crafted : List QuotedToken :=
      [⟨a, .compare .equal, "z__neq:".toList, by decide, by decide⟩,
        ⟨b, .compare .notEqual, ['y'], by decide, by decide⟩]
    crafted.map (·.label) = plain.map (·.label) ∧
      (extract (filterText crafted)).map Predicate.label =
        [("a", .compare .equal), ("z", .compare .notEqual)] ∧
      (extract (filterText plain)).map Predicate.label =
        [("a", .compare .equal), ("b", .compare .notEqual)] := by
  refine ⟨rfl, ?_, ?_⟩ <;> decide +kernel

end SearchGateway.Query
