/-
  SearchGateway.Proofs.Occurrences

  What the predicates of query text are in terms of its filter clause.  A token
  stands at a place of the clause by the look of the text alone; the predicates of a
  kind are those of the first token of the kind, of the first one that starts behind
  it, and so on.  Tokens may stand inside the values of other tokens.
-/
import SearchGateway.Proofs.TokenKinds

namespace SearchGateway.Query

open SearchGateway.Text

/-! ## Places of tokens -/

/-- A place in a clause, and the predicate of the token that stands there. -/
structure Place where
  start : Nat
  stop : Nat
  predicate : Predicate

/-- A token of a kind stands at a place of a clause: a whole word that is a key of the kind, a colon,
    whitespace and a written value. -/
inductive TokenKind.Stands (kind : TokenKind) (clause : List Char) : Place → Prop
  | intro {before gap text behind : List Char} {field : Word} {condition : Condition}
      (clause_eq : clause = before ++ (field.key kind.suffix ++ ':' :: (gap ++ (text ++ behind))))
      (outside : endsInWord false before = false) (blank : isBlank gap = true)
      (written : kind.Writes text condition) :
      Stands kind clause ⟨before.length, clause.length - behind.length,
        ⟨String.ofList field.chars, condition⟩⟩

/-- The first token of a kind that starts at a position or behind it, if there is one. -/
def First (kind : TokenKind) (clause : List Char) (position : Nat) : Option Place → Prop
  | none => ∀ place, kind.Stands clause place → place.start < position
  | some first => kind.Stands clause first ∧ position ≤ first.start ∧
      ∀ place, kind.Stands clause place → position ≤ place.start → first.start ≤ place.start

/-- The tokens of a kind that are met from a position on, each behind the one before. -/
inductive Successive (kind : TokenKind) (clause : List Char) : (position : Nat) → List Place → Prop
  | done {position : Nat} (none : First kind clause position none) :
      Successive kind clause position []
  | next {position : Nat} {place : Place} {places : List Place}
      (first : First kind clause position (some place))
      (others : Successive kind clause place.stop places) :
      Successive kind clause position (place :: places)

/-- Places of tokens of a kind that cover all tokens of it: the places are real, they are in order and
    do not overlap, and a token that is not among them starts inside one of them. -/
structure Covers (kind : TokenKind) (clause : List Char) (places : List Place) : Prop where
  stands : ∀ place ∈ places, kind.Stands clause place
  apart : places.Pairwise fun place next => place.start < place.stop ∧ place.stop ≤ next.start
  complete : ∀ place, kind.Stands clause place →
    place ∈ places ∨ ∃ earlier ∈ places, earlier.start < place.start ∧ place.start < earlier.stop

/-- Words that are ended by other characters are told apart by the text. -/
theorem eq_of_run_append {run run' cs cs' : List Char} {c c' : Char}
    (hrun : ∀ d ∈ run, isWord d = true) (hrun' : ∀ d ∈ run', isWord d = true)
    (hc : isWord c = false) (hc' : isWord c' = false) (h : run ++ c :: cs = run' ++ c' :: cs') :
    run = run' ∧ c :: cs = c' :: cs' := by
  have htake := congrArg (·.takeWhile isWord) h
  have hdrop := congrArg (·.dropWhile isWord) h
  simp only [takeWhile_run hrun hc, takeWhile_run hrun' hc'] at htake
  simp only [dropWhile_run hrun hc, dropWhile_run hrun' hc'] at hdrop
  exact ⟨htake, hdrop⟩

section Stands

variable {kind other : TokenKind} {clause before rest run : List Char} {place place' : Place}

/-- A token that does not start in a piece at the front of the text stands in what follows it. -/
theorem TokenKind.Stands.behind (h : kind.Stands (before ++ rest) place)
    (hle : before.length ≤ place.start) :
    ∃ skipped gap text behind field condition,
      rest = skipped ++ (Word.key field kind.suffix ++ ':' :: (gap ++ (text ++ behind))) ∧
      endsInWord (endsInWord false before) skipped = false ∧ isBlank gap = true ∧
      kind.Writes text condition ∧
      place = ⟨before.length + skipped.length, (before ++ rest).length - behind.length,
        ⟨String.ofList field.chars, condition⟩⟩ := by
  obtain @⟨before', gap, text, behind, field, condition, heq, houtside, hblank, hwritten⟩ := h
  have hfront : before <+: before' :=
    List.prefix_of_prefix_length_le ⟨rest, heq⟩ (List.prefix_append _ _) hle
  obtain ⟨skipped, rfl⟩ := hfront
  rw [List.append_assoc, List.append_cancel_left_eq] at heq
  rw [endsInWord_append] at houtside
  exact ⟨skipped, gap, text, behind, field, condition, heq, houtside, hblank, hwritten,
    by rw [List.length_append]⟩

theorem TokenKind.Stands.start_lt_stop (h : kind.Stands clause place) :
    place.start < place.stop := by
  obtain ⟨rfl, -, -, -⟩ := h
  simp only [List.length_append, List.length_cons]
  omega

/-- No token starts in or behind a word that ends the text. -/
theorem TokenKind.Stands.start_lt (h : kind.Stands (before ++ run) place)
    (hrun : ∀ c ∈ run, isWord c = true) : place.start < before.length := by
  refine Nat.lt_of_not_le fun hle => ?_
  obtain ⟨skipped, gap, text, behind, field, condition, rfl, -⟩ := h.behind hle
  have hcolon : isWord ':' = true := hrun ':' (by simp)
  exact absurd hcolon (by decide)

/-- A token that does not start at the front of a word starts behind the end of the word. -/
theorem TokenKind.Stands.eq_or_lt {c : Char} {cs : List Char}
    (h : kind.Stands (before ++ (run ++ c :: cs)) place) (hrun : ∀ d ∈ run, isWord d = true)
    (hle : before.length ≤ place.start) :
    place.start = before.length ∨ before.length + run.length < place.start := by
  obtain ⟨skipped, gap, text, behind, field, condition, heq, houtside, -, -, rfl⟩ := h.behind hle
  by_cases hnil : skipped = []
  · exact .inl (by rw [hnil, List.length_nil, Nat.add_zero])
  · -- the character in front of a token is no word character, so it is not in the run
    refine .inr (Nat.add_lt_add_left (Nat.lt_of_not_le fun hshort => ?_) _)
    have hinside : skipped <+: run :=
      List.prefix_of_prefix_length_le ⟨_, heq.symm⟩ (List.prefix_append _ _) hshort
    have hlast := hrun _ (hinside.subset (List.getLast_mem hnil))
    rw [← List.dropLast_concat_getLast hnil, endsInWord_concat, hlast] at houtside
    exact nomatch houtside

/-- Where a token stands at the front of a word, the word is its key and its value follows. -/
theorem TokenKind.Stands.fits {c : Char} {cs : List Char}
    (h : kind.Stands (before ++ (run ++ c :: cs)) place) (hrun : ∀ d ∈ run, isWord d = true)
    (hc : isWord c = false) (hstart : place.start = before.length) :
    ∃ field condition behind, fieldOf? kind.suffix.toList run = some field ∧
      valueAfterColon kind.form (c :: cs) = some (condition, behind) := by
  obtain ⟨skipped, gap, text, behind, field, condition, heq, -, hblank, hwritten, rfl⟩ :=
    h.behind (Nat.le_of_eq hstart.symm)
  obtain rfl : skipped = [] := List.eq_nil_of_length_eq_zero (Nat.add_eq_left.mp hstart)
  obtain ⟨rfl, hvalue⟩ :=
    eq_of_run_append hrun (isWord_key kind.suffix_mem field) hc (by decide) heq
  rw [hvalue]
  exact ⟨_, _, _, fieldOf?_key field _, hwritten.valueAfterColon hblank behind⟩

/-- A token does not start at a character that is no word character. -/
theorem TokenKind.Stands.start_ne {c : Char} {cs : List Char}
    (h : kind.Stands (before ++ c :: cs) place) (hc : isWord c = false) :
    place.start ≠ before.length := by
  intro hstart
  have hempty : kind.Stands (before ++ ([] ++ c :: cs)) place := h
  obtain ⟨field, condition, behind, hfield, -⟩ :=
    hempty.fits (fun d hd => nomatch hd) hc hstart
  simp [fieldOf?] at hfield

/-- A token behind a piece that ends outside a word is a token of what follows the piece. -/
theorem TokenKind.Stands.drop (h : kind.Stands (before ++ rest) place)
    (hbefore : endsInWord false before = false) (hle : before.length ≤ place.start) :
    ∃ place', kind.Stands rest place' ∧ place.start = before.length + place'.start := by
  obtain ⟨skipped, gap, text, behind, field, condition, heq, houtside, hblank, hwritten, rfl⟩ :=
    h.behind hle
  rw [hbefore] at houtside
  exact ⟨_, .intro heq houtside hblank hwritten, rfl⟩

/-- No two tokens start at one position, whatever their kinds are. -/
theorem TokenKind.Stands.eq_of_start (h : kind.Stands clause place)
    (h' : other.Stands clause place') (hstart : place.start = place'.start) :
    kind = other ∧ place = place' := by
  obtain @⟨before, gap, text, behind, field, condition, rfl, houtside, hblank, hwritten⟩ := h
  obtain ⟨skipped, gap', text', behind', field', condition', heq, -, hblank', hwritten', rfl⟩ :=
    h'.behind (Nat.le_of_eq hstart)
  obtain rfl : skipped = [] := List.eq_nil_of_length_eq_zero (Nat.add_eq_left.mp hstart.symm)
  obtain ⟨hkey, hcolon⟩ := eq_of_run_append (isWord_key kind.suffix_mem field)
    (isWord_key other.suffix_mem field') (by decide) (by decide) heq
  have hsuffix : kind.suffix = other.suffix := by
    have hends : keyEnding other.suffix <:+ field.key kind.suffix := by
      rw [hkey]
      exact List.suffix_append _ _
    exact Decidable.byContradiction fun hne =>
      not_suffix_key kind.suffix_mem other.suffix_mem hne field hends
  have hopening : kind.opening = other.opening := by
    have hdrop := congrArg dropSpace (List.cons.inj hcolon).2
    rw [kind.recognises_form.dropSpace_gap hblank hwritten,
      other.recognises_form.dropSpace_gap hblank' hwritten'] at hdrop
    have hhead := congrArg List.head? hdrop
    rw [List.head?_append, List.head?_append, hwritten.opens, hwritten'.opens] at hhead
    exact Option.some.inj hhead
  obtain rfl := TokenKind.eq_of_suffix_of_opening hsuffix hopening
  -- the key and the text behind it now give the field and the value of both
  have hfield : field.chars = field'.chars := by
    have hfield := fieldOf?_key field kind.suffix
    rw [hkey, fieldOf?_key] at hfield
    exact (Option.some.inj hfield).symm
  have hvalue := hwritten.valueAfterColon hblank behind
  rw [hcolon, hwritten'.valueAfterColon hblank'] at hvalue
  obtain ⟨rfl, rfl⟩ := Prod.mk.inj (Option.some.inj hvalue)
  exact ⟨rfl, by simp [hfield]⟩

end Stands

/-! ## Tokens one after the other -/

section Successive

variable {kind : TokenKind} {clause : List Char} {position : Nat} {places : List Place}

/-- A scan may start later if no token starts in between. -/
theorem Successive.skip {later : Nat} (h : Successive kind clause later places)
    (hle : position ≤ later)
    (hnone : ∀ place, kind.Stands clause place → position ≤ place.start → later ≤ place.start) :
    Successive kind clause position places := by
  cases h with
  | done hdone =>
    refine .done fun place hplace => Nat.lt_of_not_le fun hstart => ?_
    exact Nat.lt_irrefl _ (Nat.lt_of_lt_of_le (hdone place hplace) (hnone place hplace hstart))
  | next hfirst hothers =>
    obtain ⟨hstands, hstart, hleast⟩ := hfirst
    exact .next ⟨hstands, Nat.le_trans hle hstart, fun place hplace hposition =>
      hleast place hplace (hnone place hplace hposition)⟩ hothers

/-- There is one way to take tokens one after the other. -/
theorem Successive.unique {places' : List Place} (h : Successive kind clause position places)
    (h' : Successive kind clause position places') : places = places' := by
  induction h generalizing places' with
  | done hdone =>
    cases h' with
    | done => rfl
    | next hfirst _ => exact absurd (hdone _ hfirst.1) (Nat.not_lt.mpr hfirst.2.1)
  | next hfirst hothers ih =>
    cases h' with
    | done hdone => exact absurd (hdone _ hfirst.1) (Nat.not_lt.mpr hfirst.2.1)
    | next hfirst' hothers' =>
      obtain ⟨hstands, hstart, hleast⟩ := hfirst
      obtain ⟨hstands', hstart', hleast'⟩ := hfirst'
      have hsame := Nat.le_antisymm (hleast _ hstands' hstart') (hleast' _ hstands hstart)
      obtain rfl := (hstands.eq_of_start hstands' hsame).2
      rw [ih hothers']

theorem Successive.first_head? (h : Successive kind clause position places) :
    First kind clause position places.head? := by
  cases h with
  | done hdone => exact hdone
  | next hfirst _ => exact hfirst

theorem Successive.position_le (h : Successive kind clause position places) :
    ∀ place ∈ places, position ≤ place.start := by
  induction h with
  | done => exact fun place hplace => nomatch hplace
  | next hfirst _ ih =>
    obtain ⟨hstands, hstart, -⟩ := hfirst
    refine List.forall_mem_cons.mpr ⟨hstart, fun place hplace => ?_⟩
    exact Nat.le_trans (Nat.le_trans hstart (Nat.le_of_lt hstands.start_lt_stop)) (ih place hplace)

/-- From a position on, the tokens that are met cover all. -/
theorem Successive.complete (h : Successive kind clause position places) {place : Place}
    (hplace : kind.Stands clause place) (hposition : position ≤ place.start) :
    place ∈ places ∨
      ∃ earlier ∈ places, earlier.start < place.start ∧ place.start < earlier.stop := by
  induction h with
  | done hdone => exact absurd (hdone place hplace) (by omega)
  | @next position first others hfirst _ ih =>
    obtain ⟨hstands, -, hleast⟩ := hfirst
    rcases Nat.eq_or_lt_of_le (hleast place hplace hposition) with hsame | hlt
    · obtain rfl := (hstands.eq_of_start hplace hsame).2
      exact .inl List.mem_cons_self
    · by_cases hinside : place.start < first.stop
      · exact .inr ⟨first, List.mem_cons_self, hlt, hinside⟩
      · rcases ih (by omega) with hmem | ⟨earlier, hmem, hearlier⟩
        · exact .inl (List.mem_cons_of_mem _ hmem)
        · exact .inr ⟨earlier, List.mem_cons_of_mem _ hmem, hearlier⟩

theorem Successive.stands (h : Successive kind clause position places) :
    ∀ place ∈ places, kind.Stands clause place := by
  induction h with
  | done => exact fun place hplace => nomatch hplace
  | next hfirst _ ih => exact List.forall_mem_cons.mpr ⟨hfirst.1, ih⟩

theorem Successive.apart (h : Successive kind clause position places) :
    places.Pairwise fun place next => place.start < place.stop ∧ place.stop ≤ next.start := by
  induction h with
  | done => exact .nil
  | next hfirst hothers ih =>
    exact .cons (fun next hnext => ⟨hfirst.1.start_lt_stop, hothers.position_le next hnext⟩) ih

theorem Successive.covers (h : Successive kind clause 0 places) : Covers kind clause places where
  stands := h.stands
  apart := h.apart
  complete := fun _ hplace => h.complete hplace (Nat.zero_le _)

end Successive

/-! ## What a scan reports -/

/-- A word with a field is a key. -/
theorem eq_key_of_fieldOf? {suffix : String} {word chars : List Char}
    (hword : ∀ c ∈ word, isWord c = true) (h : fieldOf? suffix.toList word = some chars) :
    ∃ field : Word, field.chars = chars ∧ word = field.key suffix := by
  simp only [fieldOf?] at h
  split at h
  · rename_i hends
    rw [Bool.and_eq_true, List.isSuffixOf_iff_suffix, decide_eq_true_eq] at hends
    obtain ⟨⟨front, rfl⟩, hlength⟩ := hends
    obtain rfl : front = chars := by simpa using h
    have hne : front ≠ [] := fun hnil => by simp [hnil] at hlength
    have hfront : front.all isWord = true :=
      List.all_eq_true.mpr fun c hc => hword c (List.mem_append_left _ hc)
    exact ⟨⟨front, hne, hfront⟩, rfl, rfl⟩
  · cases h

/-- The scan of a text reports the tokens that are met behind the piece in front of the text. -/
def ReportsMet (kind : TokenKind) (before rest : List Char) : Prop :=
  ∃ places, Successive kind (before ++ rest) before.length places ∧
    places.map (·.predicate) = reported kind rest

theorem reportsMet_word (kind : TokenKind) (before : List Char) {run : List Char}
    (hrun : ∀ c ∈ run, isWord c = true) : ReportsMet kind before run := by
  refine ⟨[], .done fun place hplace => hplace.start_lt hrun, ?_⟩
  rw [reported, tokens_word _ hrun]
  rfl

/-- A word that does not fit adds nothing. -/
theorem ReportsMet.misfit {kind : TokenKind} {before run cs : List Char} {c : Char}
    (hrun : ∀ d ∈ run, isWord d = true) (hc : isWord c = false)
    (hmisfit : fieldOf? kind.suffix.toList run = none ∨ valueAfterColon kind.form (c :: cs) = none)
    (h : ReportsMet kind (before ++ (run ++ [c])) cs) :
    ReportsMet kind before (run ++ c :: cs) := by
  obtain ⟨places, hplaces, hreported⟩ := h
  simp only [List.append_assoc, List.cons_append, List.nil_append, List.length_append,
    List.length_cons, List.length_nil] at hplaces
  refine ⟨places, hplaces.skip (Nat.le_add_right _ _) fun place hplace hle => ?_, ?_⟩
  · -- a token at the front of the word would fit
    rcases hplace.eq_or_lt hrun hle with hstart | hlt
    · obtain ⟨field, condition, behind, hfield, hvalue⟩ := hplace.fits hrun hc hstart
      rcases hmisfit with hnone | hnone
      · exact nomatch hfield.symm.trans hnone
      · exact nomatch hvalue.symm.trans hnone
    · omega
  · rw [hreported, reported, reported, tokens_past kind.shrinks_form hrun hc hmisfit]

/-- A scan reports the token that it starts at, and goes on behind its value. -/
theorem reported_token {kind : TokenKind} {gap text : List Char} {condition : Condition}
    (field : Word) (hblank : isBlank gap = true) (hwritten : kind.Writes text condition)
    (behind : List Char) :
    reported kind (field.key kind.suffix ++ ':' :: (gap ++ (text ++ behind))) =
      ⟨String.ofList field.chars, condition⟩ :: reported kind behind := by
  rw [reported, reported,
    tokens_of_fit kind.shrinks_form (key_ne_nil field _) (isWord_key kind.suffix_mem field)
      (by decide) (fieldOf?_key field _) (hwritten.valueAfterColon hblank behind), List.map_cons]

/-- A word that fits adds a token. -/
theorem ReportsMet.fit {kind : TokenKind} {before gap text behind : List Char} {field : Word}
    {condition : Condition} (hbefore : endsInWord false before = false)
    (hblank : isBlank gap = true) (hwritten : kind.Writes text condition)
    (h : ReportsMet kind (before ++ (field.key kind.suffix ++ ':' :: (gap ++ text))) behind) :
    ReportsMet kind before (field.key kind.suffix ++ ':' :: (gap ++ (text ++ behind))) := by
  obtain ⟨places, hplaces, hreported⟩ := h
  have hstands := @TokenKind.Stands.intro kind _ before gap text behind field condition rfl
    hbefore hblank hwritten
  -- the token stops where the text behind it begins
  have hstop : (before ++ (field.key kind.suffix ++ ':' :: (gap ++ text))).length =
      (before ++ (field.key kind.suffix ++ ':' :: (gap ++ (text ++ behind)))).length -
        behind.length := by
    simp only [List.length_append, List.length_cons]
    omega
  rw [hstop] at hplaces
  simp only [List.append_assoc, List.cons_append] at hplaces
  refine ⟨_ :: places, .next ⟨hstands, Nat.le_refl _, fun _ _ hle => hle⟩ hplaces, ?_⟩
  rw [List.map_cons, hreported, reported_token field hblank hwritten]

/-- A scan that starts outside a word reports the tokens from there on, one after the other. -/
theorem reportsMet (kind : TokenKind) (before rest : List Char)
    (hbefore : endsInWord false before = false) : ReportsMet kind before rest := by
  -- the induction is on what is left of the text: every step takes a word and what ends it
  induction hn : rest.length using Nat.strongRecOn generalizing before rest with
  | ind n ih =>
    rcases exists_run isWord rest with hrun | ⟨run, c, cs, hrun, hc, rfl⟩
    · exact reportsMet_word kind before hrun
    · have hpast : ReportsMet kind (before ++ (run ++ [c])) cs := by
        have hshorter : cs.length < n := by
          rw [← hn, List.length_append, List.length_cons]
          omega
        refine ih _ hshorter _ cs ?_ rfl
        rw [endsInWord_append, endsInWord_concat, hc]
      cases hfield : fieldOf? kind.suffix.toList run with
      | none => exact .misfit hrun hc (.inl hfield) hpast
      | some chars =>
        cases hvalue : valueAfterColon kind.form (c :: cs) with
        | none => exact .misfit hrun hc (.inr hvalue) hpast
        | some found =>
          obtain ⟨condition, behind⟩ := found
          obtain ⟨field, rfl, rfl⟩ := eq_key_of_fieldOf? hrun hfield
          obtain ⟨gap, text, hblank, hwritten, hcolon⟩ := valueAfterColon_eq_some_iff.mp hvalue
          rw [hcolon] at hn ⊢
          have hshorter : behind.length < n := by
            rw [← hn]
            simp only [List.length_append, List.length_cons]
            omega
          refine .fit hbefore hblank hwritten (ih _ hshorter _ behind ?_ rfl)
          simp only [endsInWord_append, endsInWord_cons, kind.recognises_form.closes hwritten]

/-- A piece in which no token of a kind starts is passed over. -/
theorem reported_append {kind : TokenKind} {piece rest : List Char}
    (hpiece : endsInWord false piece = false)
    (hnone : ∀ place, kind.Stands (piece ++ rest) place → piece.length ≤ place.start) :
    reported kind (piece ++ rest) = reported kind rest := by
  obtain ⟨places, hplaces, hbehind⟩ := reportsMet kind piece rest hpiece
  obtain ⟨found, hfound, hall⟩ := reportsMet kind [] (piece ++ rest) rfl
  have hskip : Successive kind (piece ++ rest) 0 places :=
    hplaces.skip (Nat.zero_le _) fun place hplace _ => hnone place hplace
  rw [← hall, hfound.unique hskip, hbehind]

/-- The predicates of a clause by the places of its tokens. -/
structure Reports (clause : List Char) (found : TokenKind → List Place)
    (predicates : List Predicate) : Prop where
  /-- The scalar kinds come in the order of the suffix table (`Scalar.suffixTable_eq`), then the
      ranges and the lists; of the ranges only the first one is kept. -/
  predicates_eq :
    predicates = TokenKind.all.flatMap fun kind => (kind.kept (found kind)).map (·.predicate)
  /-- What is found of a kind are its first token, the first one behind it, and so on. -/
  successive : ∀ kind places, Successive kind clause 0 places ↔ places = found kind
  covers : ∀ kind, Covers kind clause (found kind)
  range : First .range clause 0 (found .range).head?
  /-- No key is read for two kinds. -/
  one_kind : ∀ {kind other : TokenKind} {place place' : Place}, kind.Stands clause place →
    other.Stands clause place' → place.start = place'.start → kind = other ∧ place = place'

theorem TokenKind.map_kept {α β : Type} (kind : TokenKind) (f : α → β) (found : List α) :
    (kind.kept found).map f = kind.kept (found.map f) := by
  cases kind with
  | range => exact List.map_take
  | scalar | list => rfl

/-- The predicates of query text are those of the tokens of its clause, kind by kind and each kind
    from left to right. -/
theorem extract_reports {raw clause : String} (h : filterClause? raw = some clause) :
    ∃ found, Reports clause.toList found (extract raw) := by
  obtain ⟨cs, hcs, rfl⟩ := Option.map_eq_some_iff.mp h
  rw [String.toList_ofList]
  have hall (kind : TokenKind) : ∃ places, Successive kind cs 0 places ∧
      places.map (·.predicate) = reported kind cs := reportsMet kind [] cs rfl
  obtain ⟨found, hfound⟩ := Classical.axiomOfChoice hall
  have hsuccessive (kind : TokenKind) : Successive kind cs 0 (found kind) := (hfound kind).1
  have hreported (kind : TokenKind) : (found kind).map (·.predicate) = reported kind cs :=
    (hfound kind).2
  refine ⟨found, ?_, fun kind places => ⟨fun hplaces => hplaces.unique (hsuccessive kind), ?_⟩,
    fun kind => (hsuccessive kind).covers, (hsuccessive .range).first_head?, ?_⟩
  · rw [extract, hcs]
    show clausePredicates cs = _
    simp only [clausePredicates_eq, TokenKind.map_kept, hreported]
  · rintro rfl
    exact hsuccessive kind
  · exact fun hplace hplace' => hplace.eq_of_start hplace'

/-- A field may look like a key, and a value like a token: the token in the value of the first one is
    found as well, and it hides the one that comes after it. -/
theorem extract_reports_nested :
    filterClause? "filter: \x7bx__eq__eq: \"a__neq:\", b__neq: \"c\", d__not_in: [\"e\"]\x7d" =
        some "x__eq__eq: \"a__neq:\", b__neq: \"c\", d__not_in: [\"e\"]" ∧
      ∃ found, Reports "x__eq__eq: \"a__neq:\", b__neq: \"c\", d__not_in: [\"e\"]".toList found
        [⟨"x__eq", .compare .equal "a__neq:"⟩, ⟨"a", .compare .notEqual ", b__neq: "⟩,
          ⟨"d", .member .notInList ["e"]⟩] := by
  have hclause : filterClause?
      "filter: \x7bx__eq__eq: \"a__neq:\", b__neq: \"c\", d__not_in: [\"e\"]\x7d" =
        some "x__eq__eq: \"a__neq:\", b__neq: \"c\", d__not_in: [\"e\"]" := by decide +kernel
  obtain ⟨found, hfound⟩ := extract_reports hclause
  have hextract : extract
      "filter: \x7bx__eq__eq: \"a__neq:\", b__neq: \"c\", d__not_in: [\"e\"]\x7d" =
        [⟨"x__eq", .compare .equal "a__neq:"⟩, ⟨"a", .compare .notEqual ", b__neq: "⟩,
          ⟨"d", .member .notInList ["e"]⟩] := by decide +kernel
  rw [hextract] at hfound
  exact ⟨hclause, found, hfound⟩

end SearchGateway.Query
