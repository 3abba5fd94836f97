/-
  SearchGateway.Proofs.TokenKinds

  The kinds of tokens in a filter clause.  Each kind has a suffix for its keys and a
  form for its values, and the predicates of a clause are what the scans for the
  kinds find, one kind after the other.  The form of a kind takes exactly the texts
  in which values of the kind are written.
-/
import SearchGateway.Proofs.CanonicalClause

namespace SearchGateway.Query

open SearchGateway.Text

/-! ## Suffixes and forms -/

/-- A form whose values are passed through a function. -/
def mapForm {α β : Type} (f : α → β) (form : ValueForm α) : ValueForm β := fun cs =>
  (form cs).map fun found => (f found.1, found.2)

namespace TokenKind

/-- The suffix of the keys of a kind. -/
def suffix : TokenKind → String
  | scalar operator => operator.suffix
  | range => Operator.betweenSuffix
  | list membership => membership.suffix

/-- The form of the values of a kind, with the condition that each of them gives. -/
def form : TokenKind → ValueForm Condition
  | scalar operator => mapForm (fun value => operator.condition (String.ofList value)) quoted
  | range =>
    mapForm (fun pair => .between (String.ofList pair.1) (String.ofList pair.2)) bounds
  | list membership => mapForm (fun body => .member membership (splitList body)) bracketed

/-- The character that opens a value of a kind. -/
def opening : TokenKind → Char
  | scalar _ => '"'
  | range => '\x7b'
  | list _ => '['

theorem mem_all (kind : TokenKind) : kind ∈ all := by
  rcases kind with ((_ | _) | (_ | _) | (_ | _)) | _ | (_ | _) <;> decide

theorem suffix_mem (kind : TokenKind) : kind.suffix ∈ keySuffixes := by
  cases kind with
  | scalar operator => exact operator.suffix_mem
  | range => exact between_mem
  | list membership => exact membership.suffix_mem

/-- A kind is known by its suffix and by the character that opens its values. -/
theorem eq_of_suffix_of_opening {kind other : TokenKind} (hsuffix : kind.suffix = other.suffix)
    (hopening : kind.opening = other.opening) : kind = other := by
  have hall : ∀ kind ∈ all, ∀ other ∈ all,
      kind.suffix = other.suffix → kind.opening = other.opening → kind = other := by
    decide +kernel
  exact hall kind kind.mem_all other other.mem_all hsuffix hopening

end TokenKind

/-! ## What the scan for a kind reports -/

/-- The predicates of the tokens of a kind, from left to right. -/
def reported (kind : TokenKind) (clause : List Char) : List Predicate :=
  (tokens kind.suffix kind.form clause).map fun token => ⟨String.ofList token.field, token.value⟩

theorem mapForm_of_none {α β : Type} {f : α → β} {form : ValueForm α} {cs : List Char}
    (h : form cs = none) : mapForm f form cs = none := by
  rw [mapForm, h]
  rfl

theorem mapForm_of_some {α β : Type} {f : α → β} {form : ValueForm α} {cs rest : List Char} {x : α}
    (h : form cs = some (x, rest)) : mapForm f form cs = some (f x, rest) := by
  rw [mapForm, h]
  rfl

theorem Shrinks.mapForm {α β : Type} {form : ValueForm α} (h : Shrinks form) (f : α → β) :
    Shrinks (mapForm f form) := by
  refine ⟨fun {cs y rest} hy => ?_⟩
  obtain ⟨⟨x, behind⟩, hx, heq⟩ := Option.map_eq_some_iff.mp hy
  obtain rfl : behind = rest := (Prod.mk.inj heq).2
  exact h.length_le hx

theorem TokenKind.shrinks_form (kind : TokenKind) : Shrinks kind.form := by
  cases kind with
  | scalar operator =>
    rw [form]
    exact QueryToken.shrinks_quoted.mapForm _
  | range =>
    rw [form]
    exact shrinks_bounds.mapForm _
  | list membership =>
    rw [form]
    exact QueryToken.shrinks_bracketed.mapForm _

theorem valueAfterColon_mapForm {α β : Type} (f : α → β) (form : ValueForm α) (cs : List Char) :
    valueAfterColon (mapForm f form) cs = mapForm f (valueAfterColon form) cs := by
  cases hcolon : after? [':'] cs with
  | none => simp [valueAfterColon, mapForm, hcolon]
  | some rest => simp [valueAfterColon, mapForm, hcolon]

/-- A scan finds the same fields whatever function its values are passed through. -/
theorem tokensWithin_mapForm {α β : Type} (f : α → β) (suffix : List Char) (form : ValueForm α) :
    ∀ clock cs, tokensWithin suffix (mapForm f form) clock cs =
      (tokensWithin suffix form clock cs).map fun token => ⟨token.field, f token.value⟩
  | [], _ => rfl
  | _ :: _, [] => rfl
  | _ :: clock, c :: cs => by
    rw [tokensWithin, tokensWithin]
    split
    · simp only [valueAfterColon_mapForm]
      cases hfield : fieldOf? suffix (c :: cs.takeWhile isWord) with
      | none => exact tokensWithin_mapForm f suffix form clock _
      | some field =>
        cases hvalue : valueAfterColon form (cs.dropWhile isWord) with
        | none =>
          simp only [mapForm_of_none hvalue]
          exact tokensWithin_mapForm f suffix form clock _
        | some found =>
          obtain ⟨value, rest⟩ := found
          simp only [mapForm_of_some hvalue, List.map_cons]
          rw [tokensWithin_mapForm f suffix form clock]
    · exact tokensWithin_mapForm f suffix form clock cs

theorem tokens_mapForm {α β : Type} (f : α → β) (suffix : String) (form : ValueForm α)
    (clause : List Char) :
    tokens suffix (mapForm f form) clause =
      (tokens suffix form clause).map fun token => ⟨token.field, f token.value⟩ :=
  tokensWithin_mapForm f suffix.toList form clause clause

theorem reported_scalar (operator : Scalar) (clause : List Char) :
    scalarPredicates operator.suffix operator.operator clause =
      reported (.scalar operator) clause := by
  rw [reported, TokenKind.suffix, TokenKind.form, tokens_mapForm, List.map_map, scalarPredicates]
  simp only [Scalar.ofScalar?_operator, Option.map_some]
  rw [← List.filterMap_eq_map]
  rfl

theorem reported_range (clause : List Char) :
    rangePredicate? clause = (reported .range clause).head? := by
  rw [reported, TokenKind.suffix, TokenKind.form, tokens_mapForm, List.map_map, List.head?_map]
  rfl

theorem reported_list (membership : Membership) (clause : List Char) :
    listPredicates membership.suffix membership clause = reported (.list membership) clause := by
  rw [reported, TokenKind.suffix, TokenKind.form, tokens_mapForm, List.map_map]
  rfl

/-- What is kept of the tokens of a kind: only the first one of the ranges. -/
def TokenKind.kept {α : Type} : TokenKind → List α → List α
  | range, found => found.take 1
  | scalar _, found | list _, found => found

/-- The predicates of a clause are what is kept of each kind, in the order of the kinds. -/
theorem clausePredicates_eq (clause : List Char) :
    clausePredicates clause =
      TokenKind.all.flatMap fun kind => kind.kept (reported kind clause) := by
  have hrange : (rangePredicate? clause).toList = (reported .range clause).take 1 := by
    rw [reported_range]
    cases reported .range clause <;> rfl
  have hlists : (Operator.listSuffixes.flatMap fun entry =>
      listPredicates entry.1 entry.2 clause) =
        reported (.list .inList) clause ++ reported (.list .notInList) clause := by
    rw [← reported_list, ← reported_list]
    simp [Operator.listSuffixes, Membership.suffix]
  rw [clausePredicates, Scalar.suffixTable_eq, List.flatMap_map, hrange, hlists]
  simp only [reported_scalar]
  simp [TokenKind.all, TokenKind.kept, List.flatMap_map]

/-! ## How values are written -/

/-- A text between an opening and a closing character; the closing one is not in the body. -/
structure Enclosed (opening close : Char) (text body : List Char) : Prop where
  text_eq : text = opening :: (body ++ [close])
  bare : close ∉ body

/-- A keyword, its colon, whitespace and a value in quotes. -/
inductive Labelled (keyword : String) : (text value : List Char) → Prop
  | intro {gap quote value : List Char} (blank : isBlank gap = true)
      (quoted : Enclosed '"' '"' quote value) :
      Labelled keyword (keyword.toList ++ ':' :: (gap ++ quote)) value

/-- The two bounds of a range, up to the quote that closes the second one. -/
inductive BoundsText : (text : List Char) → List Char × List Char → Prop
  | intro {gap lowText gap' gap'' highText low high : List Char} (blank : isBlank gap = true)
      (lower : Labelled "value" lowText low) (blank' : isBlank gap' = true)
      (blank'' : isBlank gap'' = true) (upper : Labelled "highValue" highText high) :
      BoundsText ('\x7b' :: (gap ++ (lowText ++ (gap' ++ ',' :: (gap'' ++ highText))))) (low, high)

/-- The texts in which values of a kind are written, with the conditions that they give. -/
inductive TokenKind.Writes : TokenKind → (text : List Char) → Condition → Prop
  | scalar {operator : Scalar} {text value : List Char} (quoted : Enclosed '"' '"' text value) :
      Writes (scalar operator) text (operator.condition (String.ofList value))
  | range {text low high : List Char} (bounds : BoundsText text (low, high)) :
      Writes range text (.between (String.ofList low) (String.ofList high))
  | list {membership : Membership} {text body : List Char} (bracketed : Enclosed '[' ']' text body) :
      Writes (list membership) text (.member membership (splitList body))

/-- A form takes exactly the texts of a spelling, each for its value.  Every such text begins with
    something else than whitespace and ends outside a word. -/
structure Recognises {α : Type} (form : ValueForm α) (Spells : List Char → α → Prop) : Prop where
  reads : ∀ {text x}, Spells text x → ∀ rest, form (text ++ rest) = some (x, rest)
  spelled : ∀ {cs x rest}, form cs = some (x, rest) → ∃ text, Spells text x ∧ cs = text ++ rest
  opens : ∀ {text x}, Spells text x → ∃ c tail, text = c :: tail ∧ isSpace c = false
  closes : ∀ {text x}, Spells text x → ∀ inWord, endsInWord inWord text = false

section Recognises

variable {α : Type} {form : ValueForm α} {Spells : List Char → α → Prop}

theorem recognises_enclosed {opening close : Char} (hopening : isSpace opening = false)
    (hclose : isWord close = false) :
    Recognises (enclosed? opening close) (Enclosed opening close) where
  reads := by
    rintro text body ⟨rfl, hbare⟩ rest
    rw [List.cons_append, List.append_assoc]
    exact enclosed?_append opening hbare rest
  spelled := by
    intro cs body rest h
    obtain ⟨hbare, rfl⟩ := eq_append_of_enclosed? h
    exact ⟨_, ⟨rfl, hbare⟩, by simp⟩
  opens := by
    rintro text body ⟨rfl, -⟩
    exact ⟨opening, _, rfl, hopening⟩
  closes := by
    rintro text body ⟨rfl, -⟩ inWord
    rw [endsInWord_cons, endsInWord_concat, hclose]

/-- Only the whitespace in front of a value is dropped. -/
theorem Recognises.dropSpace_gap (h : Recognises form Spells) {gap text : List Char} {x : α}
    (hgap : isBlank gap = true) (htext : Spells text x) (rest : List Char) :
    dropSpace (gap ++ (text ++ rest)) = text ++ rest := by
  obtain ⟨c, tail, rfl, hc⟩ := h.opens htext
  refine dropSpace_append hgap fun d hd => ?_
  obtain rfl : c = d := Option.some.inj hd
  exact hc

/-- A value behind whitespace is read. -/
theorem Recognises.reads_gap (h : Recognises form Spells) {gap text : List Char} {x : α}
    (hgap : isBlank gap = true) (htext : Spells text x) (rest : List Char) :
    form (dropSpace (gap ++ (text ++ rest))) = some (x, rest) := by
  rw [h.dropSpace_gap hgap htext, h.reads htext]

theorem Recognises.spelled_gap (h : Recognises form Spells) {cs rest : List Char} {x : α}
    (hform : form (dropSpace cs) = some (x, rest)) :
    ∃ gap text, isBlank gap = true ∧ Spells text x ∧ cs = gap ++ (text ++ rest) := by
  obtain ⟨gap, hgap, hcs⟩ := exists_gap cs
  obtain ⟨text, htext, hdrop⟩ := h.spelled hform
  refine ⟨gap, text, hgap, htext, ?_⟩
  rw [← hdrop]
  exact hcs

theorem recognises_quoted : Recognises quoted (Enclosed '"' '"') :=
  recognises_enclosed (by decide) (by decide)

/-- What follows a fixed beginning and whitespace is read off behind them. -/
theorem after?_bind_eq_some_iff (h : Recognises form Spells) {beginning cs rest : List Char}
    {x : α} :
    ((after? beginning cs).bind fun behind => form (dropSpace behind)) = some (x, rest) ↔
      ∃ gap text, isBlank gap = true ∧ Spells text x ∧
        cs = beginning ++ (gap ++ (text ++ rest)) := by
  rw [Option.bind_eq_some_iff]
  constructor
  · rintro ⟨behind, hbehind, hform⟩
    obtain ⟨gap, text, hgap, htext, rfl⟩ := h.spelled_gap hform
    exact ⟨gap, text, hgap, htext, eq_append_of_after? hbehind⟩
  · rintro ⟨gap, text, hgap, htext, rfl⟩
    exact ⟨_, after?_append _ _, h.reads_gap hgap htext rest⟩

theorem recognises_labelled {keyword : String} {c : Char} {tail : List Char}
    (hkeyword : keyword.toList = c :: tail) (hc : isSpace c = false) :
    Recognises (labelled keyword) (Labelled keyword) where
  reads := by
    rintro _ value ⟨hblank, hquoted⟩ rest
    refine (after?_bind_eq_some_iff recognises_quoted).mpr ⟨_, _, hblank, hquoted, ?_⟩
    simp only [List.append_assoc, List.cons_append, List.nil_append]
  spelled := by
    intro cs value rest h
    obtain ⟨gap, text, hgap, htext, rfl⟩ := (after?_bind_eq_some_iff recognises_quoted).mp h
    refine ⟨_, .intro hgap htext, ?_⟩
    simp only [List.append_assoc, List.cons_append, List.nil_append]
  opens := by
    rintro _ value ⟨hblank, hquoted⟩
    exact ⟨c, _, by rw [hkeyword, List.cons_append], hc⟩
  closes := by
    rintro _ value ⟨hblank, hquoted⟩ inWord
    rw [endsInWord_append, endsInWord_cons, endsInWord_append, recognises_quoted.closes hquoted]

theorem recognises_value : Recognises (labelled "value") (Labelled "value") :=
  recognises_labelled rfl (by decide)

theorem recognises_highValue : Recognises (labelled "highValue") (Labelled "highValue") :=
  recognises_labelled rfl (by decide)

theorem recognises_bounds : Recognises bounds BoundsText where
  reads := by
    rintro _ _ ⟨hblank, hlower, hblank', hblank'', hupper⟩ rest
    rename_i gap lowText gap' gap'' highText low high
    have hlow := recognises_value.reads_gap hblank hlower
      (gap' ++ ',' :: (gap'' ++ (highText ++ rest)))
    have hcomma : dropSpace (gap' ++ ',' :: (gap'' ++ (highText ++ rest))) =
        ',' :: (gap'' ++ (highText ++ rest)) :=
      dropSpace_append hblank' fun c hc => Option.some.inj hc ▸ by decide
    have hhigh := recognises_highValue.reads_gap hblank'' hupper rest
    simp only [bounds, List.cons_append, List.append_assoc, after?, if_true, Option.bind_eq_bind,
      Option.bind_some, hlow, hcomma, hhigh]
    rfl
  spelled := by
    rintro cs ⟨low, high⟩ rest h
    obtain ⟨inside, hinside, h⟩ := Option.bind_eq_some_iff.mp h
    obtain ⟨⟨low', afterLow⟩, hlow, h⟩ := Option.bind_eq_some_iff.mp h
    obtain ⟨afterComma, hcomma, h⟩ := Option.bind_eq_some_iff.mp h
    obtain ⟨⟨high', afterHigh⟩, hhigh, h⟩ := Option.bind_eq_some_iff.mp h
    obtain ⟨hpair, rfl⟩ := Prod.mk.inj (Option.some.inj h)
    obtain ⟨rfl, rfl⟩ := Prod.mk.inj hpair
    -- the steps of the form are undone from the last one to the first
    obtain ⟨gap'', highText, hblank'', hupper, rfl⟩ := recognises_highValue.spelled_gap hhigh
    obtain ⟨gap', hblank', hgap'⟩ := exists_gap afterLow
    rw [eq_append_of_after? hcomma] at hgap'
    obtain ⟨gap, lowText, hblank, hlower, rfl⟩ := recognises_value.spelled_gap hlow
    refine ⟨_, .intro hblank hlower hblank' hblank'' hupper, ?_⟩
    rw [eq_append_of_after? hinside, hgap']
    simp only [List.append_assoc, List.cons_append, List.nil_append]
  opens := by
    rintro _ _ ⟨hblank, hlower, hblank', hblank'', hupper⟩
    exact ⟨'\x7b', _, rfl, by decide⟩
  closes := by
    rintro _ _ ⟨hblank, hlower, hblank', hblank'', hupper⟩ inWord
    simp only [endsInWord_cons, endsInWord_append, recognises_highValue.closes hupper]

theorem Recognises.mapForm {β : Type} {f : α → β} {Spells' : List Char → β → Prop}
    (h : Recognises form Spells)
    (hspells : ∀ text y, Spells' text y ↔ ∃ x, Spells text x ∧ y = f x) :
    Recognises (mapForm f form) Spells' where
  reads := by
    intro text y hy rest
    obtain ⟨x, hx, rfl⟩ := (hspells text y).mp hy
    exact mapForm_of_some (h.reads hx rest)
  spelled := by
    intro cs y rest hy
    obtain ⟨⟨x, behind⟩, hform, heq⟩ := Option.map_eq_some_iff.mp hy
    obtain ⟨rfl, rfl⟩ := Prod.mk.inj heq
    obtain ⟨text, htext, hcs⟩ := h.spelled hform
    exact ⟨text, (hspells text _).mpr ⟨x, htext, rfl⟩, hcs⟩
  opens := by
    intro text y hy
    obtain ⟨x, hx, -⟩ := (hspells text y).mp hy
    exact h.opens hx
  closes := by
    intro text y hy
    obtain ⟨x, hx, -⟩ := (hspells text y).mp hy
    exact h.closes hx

end Recognises

/-- The form of a kind takes exactly the written values of the kind. -/
theorem TokenKind.recognises_form (kind : TokenKind) : Recognises kind.form kind.Writes := by
  cases kind with
  | scalar operator =>
    rw [form]
    refine recognises_quoted.mapForm fun text condition => ⟨?_, ?_⟩
    · intro hwritten
      cases hwritten with
      | scalar hquoted => exact ⟨_, hquoted, rfl⟩
    · rintro ⟨value, hquoted, rfl⟩
      exact .scalar hquoted
  | range =>
    rw [form]
    refine recognises_bounds.mapForm fun text condition => ⟨?_, ?_⟩
    · intro hwritten
      cases hwritten with
      | range hbounds => exact ⟨_, hbounds, rfl⟩
    · rintro ⟨⟨low, high⟩, hbounds, rfl⟩
      exact .range hbounds
  | list membership =>
    have hbracketed : Recognises bracketed (Enclosed '[' ']') :=
      recognises_enclosed (by decide) (by decide)
    rw [form]
    refine hbracketed.mapForm fun text condition => ⟨?_, ?_⟩
    · intro hwritten
      cases hwritten with
      | list hbody => exact ⟨_, hbody, rfl⟩
    · rintro ⟨body, hbody, rfl⟩
      exact .list hbody

/-- A written value of a kind begins with the character that opens it. -/
theorem TokenKind.Writes.opens {kind : TokenKind} {text : List Char} {condition : Condition}
    (h : kind.Writes text condition) : text.head? = some kind.opening := by
  cases h with
  | scalar quoted => rw [quoted.text_eq, List.head?_cons, opening]
  | range bounds =>
    cases bounds with
    | intro => rfl
  | list bracketed => rw [bracketed.text_eq, List.head?_cons, opening]

/-- A key is followed by a colon, whitespace and a written value of its kind. -/
theorem valueAfterColon_eq_some_iff {kind : TokenKind} {cs rest : List Char}
    {condition : Condition} :
    valueAfterColon kind.form cs = some (condition, rest) ↔
      ∃ gap text, isBlank gap = true ∧ kind.Writes text condition ∧
        cs = ':' :: (gap ++ (text ++ rest)) :=
  after?_bind_eq_some_iff kind.recognises_form

theorem TokenKind.Writes.valueAfterColon {kind : TokenKind} {gap text : List Char}
    {condition : Condition} (h : kind.Writes text condition) (hgap : isBlank gap = true)
    (rest : List Char) :
    valueAfterColon kind.form (':' :: (gap ++ (text ++ rest))) = some (condition, rest) :=
  valueAfterColon_eq_some_iff.mpr ⟨gap, text, hgap, h, rfl⟩

end SearchGateway.Query
