/-
  SearchGateway.Proofs.CanonicalRecovery

  What the scans recover from a canonical query: the first word is its collection, the
  filter clause has the predicates of its tokens, and directives and selection are read
  where they stand.
-/
import SearchGateway.Proofs.CanonicalScan
import SearchGateway.Proofs.Directives
import SearchGateway.Proofs.NamedCollection

namespace SearchGateway.Query

open SearchGateway.Text

namespace CanonicalQuery

variable {α : Type} {recognise : List Char → Option α} {keyword : List Char} {mark : Char}

/-! ## The layout of a query -/

/-- A query up to an argument, with the arguments in front of it. -/
def opening (query : CanonicalQuery) (before : List (List Char)) : List Char :=
  '\x7b' :: ' ' :: query.collection.id.toList ++ '(' :: before.flatMap (· ++ ", ".toList)

/-- Behind an argument stands a comma or the closing parenthesis. -/
theorem chars_eq_of_arguments {query : CanonicalQuery} {before behind : List (List Char)}
    {argument : List Char} (h : query.arguments = before ++ argument :: behind) :
    ∃ c rest, (c = ',' ∨ c = ')') ∧
      query.chars = query.opening before ++ (argument ++ c :: rest) := by
  have hne : ¬ query.arguments.isEmpty = true := by simp [h]
  have htext : query.argumentsText = '(' :: (before.flatMap (· ++ ", ".toList) ++ argument ++
      behind.flatMap (", ".toList ++ ·)) ++ [')'] := by
    rw [argumentsText, if_neg hne, h, intercalate_append_cons]
  rw [chars, htext]
  cases behind with
  | nil => exact ⟨')', query.ending, .inr rfl, by simp [opening]⟩
  | cons next behind =>
    exact ⟨',', ' ' :: (next ++ behind.flatMap (", ".toList ++ ·) ++ ')' :: query.ending), .inl rfl,
      by simp [opening]⟩

theorem blind_opening (h : Oblivious keyword mark recognise) (query : CanonicalQuery)
    (before : List (List Char)) (hbefore : ∀ argument ∈ before, Blind recognise argument) :
    Blind recognise (query.opening before) := by
  have hbrace : Blind recognise "\x7b ".toList := h.aside (by decide)
  have hid : Blind recognise (query.collection.id.toList ++ ['(']) :=
    h.stop (h.mark_notMem_of_isWord (Collection.isWord_id _)) (by decide)
  have harguments : Blind recognise (before.flatMap (· ++ ", ".toList)) :=
    .flatMap fun argument hmem => (hbefore argument hmem).append h.blind_separator
  have hall := (hbrace.append hid).append harguments
  simpa [opening] using hall

theorem endsInWord_opening (query : CanonicalQuery) (before : List (List Char)) :
    endsInWord false (query.opening before) = false := by
  have harguments : endsInWord false (before.flatMap (· ++ ", ".toList)) = false := by
    induction before with
    | nil => rfl
    | cons argument before ih =>
      rw [List.flatMap_cons, endsInWord_append, endsInWord_append]
      exact ih
  rw [opening, endsInWord_append]
  exact harguments

/-- A recogniser of a mark that stands behind no argument passes over a whole query. -/
theorem blind_chars (h : Oblivious keyword ':' recognise) {query : CanonicalQuery}
    (harguments : ∀ argument ∈ query.arguments, Blind recognise argument) :
    Blind recognise query.chars := by
  have hselection : ':' ∉ query.selectionText := by
    unfold selectionText
    split
    · exact List.not_mem_nil
    · rename_i names _
      have hnames : ':' ∉ [' '].intercalate (names.map (·.chars)) :=
        notMem_intercalate (by decide) fun name _ =>
          h.mark_notMem_of_isWord fun _ => name.isWord_of_mem
      simp [hnames]
  have hending : ':' ∉ ' ' :: '\x7b' :: ' ' :: ("items".toList ++ query.selectionText ++
      " total \x7d ".toList) := by simp [hselection]
  by_cases hnone : query.arguments = []
  · -- then there is no mark in the whole text
    have hid : ':' ∉ '\x7b' :: ' ' :: query.collection.id.toList := by
      simp [h.mark_notMem_of_isWord (Collection.isWord_id query.collection)]
    have htext := h.stop (List.not_mem_append hid hending) (c := '\x7d') (by decide)
    rw [chars, argumentsText, if_pos (by simp [hnone])]
    simpa [ending] using htext
  · have hid : Blind recognise (query.collection.id.toList ++ ['(']) :=
      h.stop (h.mark_notMem_of_isWord (Collection.isWord_id _)) (by decide)
    have hbrace : Blind recognise "\x7b ".toList := h.aside (by decide)
    have hinside := h.blind_separator.intercalate harguments
    have hclose : Blind recognise [')'] := h.aside (by decide)
    have hrest := h.stop hending (c := '\x7d') (by decide)
    have hall := (((hbrace.append hid).append hinside).append hclose).append hrest
    have htext : query.argumentsText = '(' :: ", ".toList.intercalate query.arguments ++ [')'] := by
      rw [argumentsText, if_neg (by simpa using hnone)]
    rw [chars, htext]
    simpa [ending] using hall

/-! ## The collection -/

theorem detectCollection_text (query : CanonicalQuery) :
    detectCollection query.text = .ok query.collection := by
  -- the word goes up to the parenthesis of the arguments or the blank before the selection
  have hbehind : ∃ c rest, isWord c = false ∧ query.argumentsText ++ query.ending = c :: rest := by
    unfold argumentsText
    split
    · exact ⟨' ', _, by decide, rfl⟩
    · exact ⟨'(', _, by decide, rfl⟩
  obtain ⟨c, rest, hc, hbehind⟩ := hbehind
  have hwords : words query.chars = query.collection.id.toList :: words rest := by
    rw [chars, words_cons (by decide), words_cons (by decide), List.append_assoc, hbehind]
    exact words_append query.collection.id_ne_nil query.collection.isWord_id hc rest
  rw [detectCollection, text, String.toList_ofList, hwords, List.findSome?_cons,
    String.ofList_toList, Collection.ofId?_id]

/-! ## Directives -/

/-- A written integer of 64 bits reads as itself. -/
theorem int64OfText?_intText (value : Int64) :
    int64OfText? (Json.intText value.toInt) = some value.toInt := by
  have hlow := value.le_toInt
  have hhigh := value.toInt_lt
  have hfits : Json.IsInt64 value.toInt := ⟨by omega, by omega⟩
  have hwrites := writesInteger_intText value.toInt
  exact (int64OfText?_eq_some_iff hwrites.isIntegerText).mpr ⟨hwrites, hfits⟩

/-- A directive of a query is read up to the first character that is no digit. -/
theorem directiveHere?_directive (name : String) (value : Int64) {c : Char}
    (hc : isDecimalDigit c = false) (rest : List Char) :
    directiveHere? name (directive name value ++ c :: rest) =
      some (Json.intText value.toInt) := by
  have hbehind : PastDigits (c :: rest) := by
    intro d hd
    obtain rfl : c = d := Option.some.inj hd
    exact hc
  refine directiveHere?_eq_some_iff.mpr ⟨[' '], c :: rest, by decide,
    (writesInteger_intText value.toInt).isIntegerText, hbehind, ?_⟩
  simp [directive, directiveChars]

/-- A directive that stands behind arguments which the scan passes over is found. -/
theorem directive?_of_mem {name : String} (h : Oblivious name.toList ':' (directiveHere? name))
    {query : CanonicalQuery} {before behind : List (List Char)} {value : Int64}
    (harguments : query.arguments = before ++ directive name value :: behind)
    (hbefore : ∀ argument ∈ before, Blind (directiveHere? name) argument) :
    Query.directive? name query.text = some value.toInt := by
  obtain ⟨c, rest, hc, hchars⟩ := chars_eq_of_arguments harguments
  have hdigit : isDecimalDigit c = false := by
    rcases hc with rfl | rfl <;> decide
  rw [Query.directive?, text, String.toList_ofList, hchars,
    (blind_opening h query before hbefore).firstMatchOutsideWord, endsInWord_opening,
    firstMatchOutsideWord_here (directiveHere?_directive name value hdigit rest)]
  exact int64OfText?_intText value

/-- Without a directive none is found. -/
theorem directive?_of_blind {name : String} (hname : name.toList ≠ [])
    (h : Oblivious name.toList ':' (directiveHere? name)) {query : CanonicalQuery}
    (harguments : ∀ argument ∈ query.arguments, Blind (directiveHere? name) argument) :
    Query.directive? name query.text = none := by
  have hscan := (blind_chars h harguments).firstMatchOutsideWord false []
  rw [List.append_nil] at hscan
  have hend : directiveHere? name [] = none := by
    cases hchars : name.toList with
    | nil => exact absurd hchars hname
    | cons c cs =>
      rw [directiveHere?, hchars]
      rfl
  have hempty (inWord : Bool) : firstMatchOutsideWord (directiveHere? name) inWord [] = none := by
    cases inWord with
    | true => rfl
    | false => exact hend
  rw [Query.directive?, text, String.toList_ofList, hscan, hempty]
  rfl

theorem oblivious_directiveHere? {name : String} (hname : name ∈ ["limit", "offset"]) :
    Oblivious name.toList ':' (directiveHere? name) := by
  have hall : ∀ name ∈ ["limit", "offset"], ':' ∉ name.toList ∧
      name.toList ∈ ["filter", "limit", "offset", "items"].map String.toList := by decide
  obtain ⟨hbare, hmem⟩ := hall name hname
  exact oblivious_of_seeksLabel (seeksLabel_directiveHere? hbare) hmem

theorem directive?_limit (query : CanonicalQuery) :
    Query.directive? "limit" query.text = query.limit.map Int64.toInt := by
  have hlimit : "limit" ∈ ["limit", "offset"] := by decide
  have hblind := oblivious_directiveHere? hlimit
  cases hquery : query.limit with
  | some value =>
    have harguments : query.arguments = query.filterArgument?.toList ++
        directive "limit" value :: (query.offset.map (directive "offset")).toList := by
      simp [arguments, hquery]
    exact directive?_of_mem hblind harguments (hblind.blind_filterArgument (by decide))
  | none =>
    exact directive?_of_blind (by decide) hblind (hblind.blind_arguments (fun _ => by decide)
      (absurd hquery) (fun _ => by decide))

theorem directive?_offset (query : CanonicalQuery) :
    Query.directive? "offset" query.text = query.offset.map Int64.toInt := by
  have hoffset : "offset" ∈ ["limit", "offset"] := by decide
  have hblind := oblivious_directiveHere? hoffset
  cases hquery : query.offset with
  | some value =>
    have harguments : query.arguments = query.filterArgument?.toList ++
        (query.limit.map (directive "limit")).toList ++ directive "offset" value :: [] := by
      simp [arguments, hquery]
    refine directive?_of_mem hblind harguments fun argument hmem => ?_
    rcases List.mem_append.mp hmem with hmem | hmem
    · exact hblind.blind_filterArgument (by decide) argument hmem
    · exact hblind.blind_directive (by decide) (by decide) argument hmem
  | none =>
    exact directive?_of_blind (by decide) hblind (hblind.blind_arguments (fun _ => by decide)
      (fun _ => by decide) (absurd hquery))

/-! ## The filter clause -/

theorem closing_of_ne_range {token : QueryToken} (h : token.kind ≠ .range) :
    token.closing = [] := by
  cases token with
  | scalar field operator value => rfl
  | list field membership first others => rfl
  | range field low high => exact absurd rfl h

/-- The first closing brace of a clause is its own or that of the range at its end. -/
theorem intercalate_text {tokens : List QueryToken} (hne : tokens ≠ [])
    (hlast : ∀ token ∈ tokens.dropLast, token.kind ≠ .range) :
    ∃ trailer, ", ".toList.intercalate (tokens.map (·.text)) ++ " \x7d".toList =
      ", ".toList.intercalate (tokens.map (·.openText)) ++ ' ' :: '\x7d' :: trailer := by
  induction tokens with
  | nil => exact absurd rfl hne
  | cons token tokens ih =>
    cases tokens with
    | nil =>
      -- a range at the end has a brace of its own, and the brace of the clause is left over
      refine ⟨token.closing, ?_⟩
      cases token <;> simp [QueryToken.text, QueryToken.closing]
    | cons next tokens =>
      rw [List.dropLast_cons_cons, List.forall_mem_cons] at hlast
      obtain ⟨trailer, htrailer⟩ := ih (List.cons_ne_nil _ _) hlast.2
      refine ⟨trailer, ?_⟩
      simp only [List.map_cons, List.intercalate_cons_cons, List.append_assoc] at htrailer ⊢
      rw [htrailer, QueryToken.text, closing_of_ne_range hlast.1, List.append_nil]

theorem brace_notMem_key {suffix : String} (hsuffix : suffix ∈ keySuffixes) (field : Word) :
    '\x7d' ∉ field.key suffix :=
  fun hmem => absurd (isWord_key hsuffix field _ hmem) (by decide)

theorem brace_notMem_plain (text : PlainText) : '\x7d' ∉ text.chars :=
  fun hmem => (text.ne_of_mem hmem).2.2.1 rfl

theorem brace_notMem_quote (text : PlainText) : '\x7d' ∉ text.quote :=
  text.notMem_quote (by decide) (brace_notMem_plain text)

theorem brace_notMem_openText (token : QueryToken) : '\x7d' ∉ token.openText := by
  cases token with
  | scalar field operator value =>
    simp [QueryToken.openText, brace_notMem_key operator.suffix_mem, brace_notMem_quote]
  | list field membership first others =>
    have hbody : '\x7d' ∉ listBody first others := notMem_listBody (by decide) (by decide)
      fun element => brace_notMem_plain element.toPlainText
    simp [QueryToken.openText, brace_notMem_key membership.suffix_mem, hbody]
  | range field low high =>
    simp [QueryToken.openText, rangeBody, brace_notMem_key between_mem, brace_notMem_quote]

theorem brace_notMem_clauseText (tokens : List QueryToken) : '\x7d' ∉ clauseText tokens := by
  have htokens : '\x7d' ∉ ", ".toList.intercalate (tokens.map (·.openText)) :=
    notMem_intercalate (by decide) fun token _ => brace_notMem_openText token
  rw [clauseText]
  simpa using htokens

/-- The clause of a query with tokens. -/
theorem clauseHere?_filterArgument {query : CanonicalQuery} {argument : List Char}
    (h : query.filterArgument? = some argument) (rest : List Char) :
    clauseHere? (argument ++ rest) = some (clauseText query.tokens) := by
  unfold filterArgument? at h
  split at h
  · exact nomatch h
  · rename_i hne
    obtain ⟨trailer, htrailer⟩ := intercalate_text (by simpa using hne) query.range_last
    have htext : argument ++ rest = "filter:".toList ++
        (' ' :: '\x7b' :: (clauseText query.tokens ++ '\x7d' :: (trailer ++ rest))) := by
      rw [← Option.some.inj h, List.append_assoc, List.append_assoc, ← List.append_assoc _ _ rest,
        htrailer]
      simp [clauseText]
    have henclosed := enclosed?_append '\x7b' (brace_notMem_clauseText query.tokens)
      (trailer ++ rest)
    rw [htext, clauseHere?, after?_append]
    show (enclosed? '\x7b' '\x7d' (dropSpace _)).bind _ = _
    rw [dropSpace_blank, dropSpace_cons (by decide), henclosed]
    rfl

theorem oblivious_clauseHere? : Oblivious "filter".toList ':' clauseHere? :=
  oblivious_of_seeksLabel seeksLabel_clauseHere? (by decide)

/-- The predicates that are read off a canonical query are those of its tokens. -/
theorem extract_text (query : CanonicalQuery) : extract query.text = query.predicates := by
  rw [extract, text, String.toList_ofList]
  cases hfilter : query.filterArgument? with
  | none =>
    -- without tokens there is no clause, and no other part of the query is taken for one
    have htokens : query.tokens = [] := by
      unfold filterArgument? at hfilter
      split at hfilter
      · rename_i hempty
        exact List.isEmpty_iff.mp hempty
      · cases hfilter
    have hblind : Blind clauseHere? query.chars :=
      blind_chars oblivious_clauseHere? (oblivious_clauseHere?.blind_arguments (absurd hfilter)
        (fun _ => by decide) (fun _ => by decide))
    have hscan := hblind.firstMatch []
    rw [List.append_nil] at hscan
    rw [hscan, predicates, htokens]
    rfl
  | some argument =>
    have harguments : query.arguments = [] ++ argument ::
        ((query.limit.map (directive "limit")).toList ++
          (query.offset.map (directive "offset")).toList) := by
      simp [arguments, hfilter]
    obtain ⟨c, rest, -, hchars⟩ := chars_eq_of_arguments harguments
    have hopening := blind_opening oblivious_clauseHere? query []
      fun _ hmem => absurd hmem List.not_mem_nil
    rw [hchars, hopening.firstMatch,
      firstMatch_here (clauseHere?_filterArgument hfilter (c :: rest))]
    exact clausePredicates_clauseText query.range_last

/-! ## The selection -/

theorem words_names (names : List PropertyName) :
    words ([' '].intercalate (names.map (·.chars)) ++ [' ']) = names.map (·.chars) := by
  induction names with
  | nil => rfl
  | cons name names ih =>
    cases names with
    | nil =>
      rw [List.map_singleton, List.intercalate_singleton,
        words_append name.ne (fun _ => name.isWord_of_mem) (by decide)]
      rfl
    | cons next names =>
      rw [List.map_cons, List.map_cons, List.intercalate_cons_cons, List.append_assoc,
        List.append_assoc, List.singleton_append,
        words_append name.ne (fun _ => name.isWord_of_mem) (by decide)]
      exact congrArg _ ih

/-- The braces of a selection. -/
theorem selectionHere?_selection {query : CanonicalQuery} {names : List PropertyName}
    (h : query.selection = some names) (rest : List Char) :
    selectionHere? ("items".toList ++ (query.selectionText ++ rest)) =
      some (' ' :: ([' '].intercalate (names.map (·.chars)) ++ [' '])) := by
  have hbrace : '\x7d' ∉ ' ' :: ([' '].intercalate (names.map (·.chars)) ++ [' ']) := by
    have hnames : '\x7d' ∉ [' '].intercalate (names.map (·.chars)) :=
      notMem_intercalate (by decide) fun name _ hmem =>
        absurd (name.isWord_of_mem hmem) (by decide)
    simp [hnames]
  have henclosed := enclosed?_append '\x7b' hbrace rest
  have htext : query.selectionText ++ rest = ' ' :: '\x7b' ::
      (' ' :: ([' '].intercalate (names.map (·.chars)) ++ [' ']) ++ '\x7d' :: rest) := by
    simp [selectionText, h]
  rw [selectionHere?, after?_append]
  show (enclosed? '\x7b' '\x7d' (dropSpace (query.selectionText ++ rest))).bind _ = _
  rw [htext, dropSpace_blank, dropSpace_cons (by decide), henclosed]
  rfl

/-- No collection is taken for the items. -/
theorem firstMatchOutsideWord_id (collection : Collection) (rest : List Char) :
    firstMatchOutsideWord selectionHere? false
      (collection.id.toList ++ ' ' :: '\x7b' :: ' ' :: rest) =
        firstMatchOutsideWord selectionHere? false rest := by
  cases collection <;> rfl

/-- The scan for a selection comes to the items. -/
theorem firstMatchOutsideWord_chars (query : CanonicalQuery) :
    firstMatchOutsideWord selectionHere? false query.chars =
      firstMatchOutsideWord selectionHere? false
        ("items".toList ++ (query.selectionText ++ " total \x7d \x7d".toList)) := by
  have hblind := oblivious_selectionHere?
  have hbrace : Blind selectionHere? "\x7b ".toList := hblind.aside (by decide)
  by_cases hnone : query.arguments = []
  · -- the identifier stands right before a brace here, so it is tried as the keyword of a selection
    have hscan := hbrace.firstMatchOutsideWord false (query.collection.id.toList ++
      ' ' :: '\x7b' :: ' ' :: ("items".toList ++ query.selectionText ++ " total \x7d \x7d".toList))
    have houtside : endsInWord false "\x7b ".toList = false := by decide
    rw [houtside, firstMatchOutsideWord_id, List.append_assoc] at hscan
    rw [chars, argumentsText, if_pos (by simp [hnone]), List.append_nil]
    exact hscan
  · have harguments : ∀ argument ∈ query.arguments, Blind selectionHere? argument :=
      hblind.blind_arguments (fun _ => by decide) (fun _ => by decide) (fun _ => by decide)
    have hid : Blind selectionHere? (query.collection.id.toList ++ ['(']) :=
      hblind.stop (hblind.mark_notMem_of_isWord (Collection.isWord_id _)) (by decide)
    have hinside := hblind.blind_separator.intercalate harguments
    have hclose : Blind selectionHere? ") \x7b ".toList := hblind.aside (by decide)
    have hfront := (((hbrace.append hid).append hinside).append hclose).firstMatchOutsideWord false
      ("items".toList ++ (query.selectionText ++ " total \x7d \x7d".toList))
    have houtside (piece : List Char) : endsInWord false (piece ++ ") \x7b ".toList) = false := by
      rw [endsInWord_append]
      rfl
    rw [houtside] at hfront
    rw [← hfront, chars, argumentsText, if_neg (by simpa using hnone), ending]
    simp

theorem selectedProperties?_text (query : CanonicalQuery) :
    (selectedProperties? query.text).getD query.collection.defaultProperties =
      query.properties := by
  rw [selectedProperties?, text, String.toList_ofList, firstMatchOutsideWord_chars]
  cases hselection : query.selection with
  | none =>
    -- the items come without a brace, so the scan goes on to the end of the text
    have hrest : Blind selectionHere? ("items total \x7d ".toList ++ ['\x7d']) :=
      oblivious_selectionHere?.stop (by decide) (by decide)
    have hscan := hrest.firstMatchOutsideWord false []
    have htext : "items".toList ++ (query.selectionText ++ " total \x7d \x7d".toList) =
        "items total \x7d ".toList ++ ['\x7d'] ++ [] := by
      simp [selectionText, hselection]
    rw [htext, hscan]
    simp only [properties, hselection]
    rfl
  | some names =>
    rw [firstMatchOutsideWord_here (selectionHere?_selection hselection _)]
    have hnames : ((words (' ' :: ([' '].intercalate (names.map (·.chars)) ++ [' ']))).map
        String.ofList).filter (· != "id") = names.map fun name => String.ofList name.chars := by
      rw [words_cons (by decide), words_names, List.map_map]
      -- the scan leaves out the id, which is not among the names
      refine List.filter_eq_self.mpr fun text hmem => ?_
      obtain ⟨name, -, rfl⟩ := List.mem_map.mp hmem
      have hid := name.ne_id
      simp only [bne_iff_ne, ne_eq]
      exact fun heq => hid (by rw [← heq]; simp)
    simp only [hnames, properties, hselection]
    cases names <;> rfl

end CanonicalQuery

end SearchGateway.Query
