/-
  SearchGateway.Proofs.ClauseTokens

  What the scan of a filter clause for one suffix finds.  A clause is put together
  from pieces, and each piece yields its own tokens whatever follows it, so the
  tokens of a clause are those of its pieces in order.
-/
import SearchGateway.Query.Clause
import SearchGateway.Proofs.Scanning

namespace SearchGateway.Query

open SearchGateway.Text

/-! ## Forms of values -/

/-- A form that leaves at most as much as it is given. -/
structure Shrinks {α : Type} (form : ValueForm α) : Prop where
  length_le : ∀ {cs x rest}, form cs = some (x, rest) → rest.length ≤ cs.length

theorem length_of_after? {beginning cs rest : List Char} (h : after? beginning cs = some rest) :
    rest.length ≤ cs.length := by
  rw [eq_append_of_after? h, List.length_append]
  exact Nat.le_add_left _ _

theorem length_dropSpace_le (cs : List Char) : (dropSpace cs).length ≤ cs.length :=
  (List.dropWhile_suffix _).length_le

theorem shrinks_enclosed (opening close : Char) : Shrinks (enclosed? opening close) := by
  refine ⟨fun h => ?_⟩
  obtain ⟨-, rfl⟩ := eq_append_of_enclosed? h
  simp only [List.length_cons, List.length_append]
  omega

theorem Shrinks.afterSpace {α : Type} {form : ValueForm α} (hform : Shrinks form)
    {cs rest : List Char} {x : α} (h : form (dropSpace cs) = some (x, rest)) :
    rest.length ≤ cs.length :=
  Nat.le_trans (hform.length_le h) (length_dropSpace_le cs)

theorem shrinks_valueAfterColon {α : Type} {form : ValueForm α} (hform : Shrinks form) :
    Shrinks (valueAfterColon form) := by
  refine ⟨fun h => ?_⟩
  obtain ⟨behind, hbehind, hvalue⟩ := Option.bind_eq_some_iff.mp h
  exact Nat.le_trans (hform.afterSpace hvalue) (length_of_after? hbehind)

theorem shrinks_labelled (keyword : String) : Shrinks (labelled keyword) := by
  refine ⟨fun h => ?_⟩
  obtain ⟨behind, hbehind, hvalue⟩ := Option.bind_eq_some_iff.mp h
  have hquoted : Shrinks quoted := shrinks_enclosed '"' '"'
  exact Nat.le_trans (hquoted.afterSpace hvalue) (length_of_after? hbehind)

theorem shrinks_bounds : Shrinks bounds := by
  refine ⟨fun {cs x rest} h => ?_⟩
  obtain ⟨inside, hinside, h⟩ := Option.bind_eq_some_iff.mp h
  obtain ⟨⟨low, afterLow⟩, hlow, h⟩ := Option.bind_eq_some_iff.mp h
  obtain ⟨afterComma, hcomma, h⟩ := Option.bind_eq_some_iff.mp h
  obtain ⟨⟨high, afterHigh⟩, hhigh, h⟩ := Option.bind_eq_some_iff.mp h
  -- each of the steps of the form leaves at most what it was given
  obtain rfl : afterHigh = rest := (Prod.mk.inj (Option.some.inj h)).2
  calc afterHigh.length
      ≤ afterComma.length := (shrinks_labelled "highValue").afterSpace hhigh
    _ ≤ (dropSpace afterLow).length := length_of_after? hcomma
    _ ≤ afterLow.length := length_dropSpace_le afterLow
    _ ≤ inside.length := (shrinks_labelled "value").afterSpace hlow
    _ ≤ cs.length := length_of_after? hinside

/-! ## The scan of a clause -/

section Scan

variable {α : Type} {form : ValueForm α}

/-- The clock is long enough whenever it is as long as the text. -/
theorem tokensWithin_clock (hform : Shrinks form) (suffix : List Char) :
    ∀ {clock clock' cs : List Char}, cs.length ≤ clock.length → cs.length ≤ clock'.length →
      tokensWithin suffix form clock cs = tokensWithin suffix form clock' cs
  | [], [], _, _, _ => rfl
  | [], _ :: _, [], _, _ => rfl
  | _ :: _, [], [], _, _ => rfl
  | _ :: _, _ :: _, [], _, _ => rfl
  | _ :: clock, _ :: clock', c :: cs, h, h' => by
    -- every branch goes on with less text than before, so both clocks are still long enough
    simp only [List.length_cons, Nat.add_le_add_iff_right] at h h'
    have hrest : (cs.dropWhile isWord).length ≤ cs.length := (List.dropWhile_suffix _).length_le
    simp only [tokensWithin]
    split
    · split
      · rename_i behind _ hvalue
        have hbehind := (shrinks_valueAfterColon hform).length_le hvalue
        have hsame : tokensWithin suffix form clock behind =
            tokensWithin suffix form clock' behind :=
          tokensWithin_clock hform suffix (by omega) (by omega)
        rw [hsame]
      · exact tokensWithin_clock hform suffix (by omega) (by omega)
    · exact tokensWithin_clock hform suffix h h'

theorem tokens_nil (suffix : String) : tokens suffix form [] = [] := rfl

theorem tokens_cons (suffix : String) {c : Char} (hc : isWord c = false) (cs : List Char) :
    tokens suffix form (c :: cs) = tokens suffix form cs := by
  rw [tokens, tokensWithin, if_neg (by simp [hc])]
  rfl

/-- A word whose key and value fit is a token, and the scan goes on behind the value. -/
theorem tokens_of_fit (hform : Shrinks form) {suffix : String} {word : List Char} (hne : word ≠ [])
    (hword : ∀ c ∈ word, isWord c = true) {c : Char} (hc : isWord c = false)
    {cs field rest : List Char} {value : α} (hfield : fieldOf? suffix.toList word = some field)
    (hvalue : valueAfterColon form (c :: cs) = some (value, rest)) :
    tokens suffix form (word ++ c :: cs) = ⟨field, value⟩ :: tokens suffix form rest := by
  have hrest := (shrinks_valueAfterColon hform).length_le hvalue
  cases word with
  | nil => exact absurd rfl hne
  | cons d word =>
    rw [List.forall_mem_cons] at hword
    have hclock : rest.length ≤ (word ++ c :: cs).length := by
      rw [List.length_append]
      omega
    rw [tokens, List.cons_append, tokensWithin, if_pos hword.1, takeWhile_run hword.2 hc,
      dropWhile_run hword.2 hc]
    simp only [hfield, hvalue, List.cons.injEq, true_and]
    exact tokensWithin_clock hform _ hclock (Nat.le_refl _)

/-- A word whose key or value does not fit is passed over. -/
theorem tokens_of_misfit (hform : Shrinks form) {suffix : String} {word : List Char}
    (hne : word ≠ []) (hword : ∀ c ∈ word, isWord c = true) {c : Char} (hc : isWord c = false)
    {cs : List Char}
    (h : fieldOf? suffix.toList word = none ∨ valueAfterColon form (c :: cs) = none) :
    tokens suffix form (word ++ c :: cs) = tokens suffix form (c :: cs) := by
  cases word with
  | nil => exact absurd rfl hne
  | cons d word =>
    rw [List.forall_mem_cons] at hword
    have hclock : (c :: cs).length ≤ (word ++ c :: cs).length := by
      rw [List.length_append]
      omega
    have hsame := tokensWithin_clock hform suffix.toList hclock (Nat.le_refl (c :: cs).length)
    rw [tokens, List.cons_append, tokensWithin, if_pos hword.1, takeWhile_run hword.2 hc,
      dropWhile_run hword.2 hc]
    rcases h with hfield | hvalue
    · simp only [hfield]
      exact hsame
    · simp only [hvalue]
      cases fieldOf? suffix.toList (d :: word) <;> exact hsame

/-- A run of word characters is passed over, with the character that ends it, if it does not fit. -/
theorem tokens_past (hform : Shrinks form) {suffix : String} {run : List Char}
    (hrun : ∀ c ∈ run, isWord c = true) {c : Char} (hc : isWord c = false) {cs : List Char}
    (h : fieldOf? suffix.toList run = none ∨ valueAfterColon form (c :: cs) = none) :
    tokens suffix form (run ++ c :: cs) = tokens suffix form cs := by
  by_cases hne : run = []
  · rw [hne]
    exact tokens_cons suffix hc cs
  · rw [tokens_of_misfit hform hne hrun hc h, tokens_cons suffix hc]

/-- Words that no colon follows are passed over. -/
theorem tokens_run (hform : Shrinks form) (suffix : String) {run : List Char}
    (hrun : ∀ c ∈ run, isWord c = true) {c : Char} (hc : isWord c = false) (hcolon : c ≠ ':')
    (cs : List Char) : tokens suffix form (run ++ c :: cs) = tokens suffix form cs := by
  -- a key needs a colon right behind it
  have hvalue : valueAfterColon form (c :: cs) = none := by
    simp [valueAfterColon, after?, hcolon]
  exact tokens_past hform hrun hc (.inr hvalue)

/-- A run of word characters that ends the text is no token. -/
theorem tokens_word (suffix : String) {run : List Char} (hrun : ∀ c ∈ run, isWord c = true) :
    tokens suffix form run = [] := by
  cases run with
  | nil => rfl
  | cons d run =>
    rw [List.forall_mem_cons] at hrun
    have hbehind : run.dropWhile isWord = [] := by
      rw [← List.append_nil run, List.dropWhile_append_of_pos hrun.2]
      rfl
    have hvalue : valueAfterColon form [] = none := rfl
    rw [tokens, tokensWithin, if_pos hrun.1, hbehind]
    simp only [hvalue]
    cases fieldOf? suffix.toList (d :: run.takeWhile isWord) <;> cases run <;> rfl

/-! ## Pieces of a clause -/

/-- A piece of a clause yields some tokens, whatever follows it. -/
def Yields (suffix : String) (form : ValueForm α) (piece : List Char) (own : List (Token α)) :
    Prop :=
  ∀ rest, tokens suffix form (piece ++ rest) = own ++ tokens suffix form rest

variable {suffix : String}

theorem Yields.tokens {piece : List Char} {own : List (Token α)}
    (h : Yields suffix form piece own) : tokens suffix form piece = own := by
  have hall := h []
  rwa [List.append_nil, tokens_nil, List.append_nil] at hall

theorem Yields.append {first second : List Char} {own own' : List (Token α)}
    (hfirst : Yields suffix form first own) (hsecond : Yields suffix form second own') :
    Yields suffix form (first ++ second) (own ++ own') := fun rest => by
  rw [List.append_assoc, hfirst, hsecond, List.append_assoc]

/-- Pieces with a separator that yields nothing between them. -/
theorem Yields.intercalate {β : Type} {text : β → List Char} {own : β → List (Token α)}
    {separator : List Char} (hseparator : Yields suffix form separator []) {pieces : List β}
    (h : ∀ piece ∈ pieces, Yields suffix form (text piece) (own piece)) :
    Yields suffix form (separator.intercalate (pieces.map text)) (pieces.flatMap own) := by
  induction pieces with
  | nil => exact fun rest => rfl
  | cons piece pieces ih =>
    rw [List.forall_mem_cons] at h
    cases pieces with
    | nil =>
      rw [List.map_singleton, List.intercalate_singleton, List.flatMap_singleton]
      exact h.1
    | cons next pieces =>
      rw [List.map_cons, List.map_cons, List.intercalate_cons_cons, List.flatMap_cons]
      have hjoined := (h.1.append hseparator).append (ih h.2)
      rwa [List.append_nil] at hjoined

/-- A text without a colon that ends outside a word yields nothing. -/
theorem yields_plain (hform : Shrinks form) {q : List Char} (hq : ':' ∉ q) {c : Char}
    (hc : isWord c = false) (hcolon : c ≠ ':') : Yields suffix form (q ++ [c]) [] := by
  intro rest
  -- the scan skips a run of word characters and goes on behind the character that ends it
  induction hn : q.length using Nat.strongRecOn generalizing q with
  | ind n ih =>
    rcases exists_run isWord q with hrun | ⟨run, d, q', hrun, hd, rfl⟩
    · rw [List.append_assoc]
      exact tokens_run hform suffix hrun hc hcolon rest
    · have hdcolon : d ≠ ':' := fun heq => hq (by simp [heq])
      have hq' : ':' ∉ q' := fun hmem => hq (by simp [hmem])
      have hshorter : q'.length < n := by
        rw [← hn, List.length_append, List.length_cons]
        omega
      have hstep := tokens_run hform suffix hrun hd hdcolon (q' ++ [c] ++ rest)
      rw [List.append_assoc, List.append_assoc, List.cons_append, ← List.append_assoc q', hstep]
      exact ih q'.length hshorter hq' rfl

/-- A label that is no key of the suffix yields nothing. -/
theorem yields_label (hform : Shrinks form) {word : List Char} (hne : word ≠ [])
    (hword : ∀ c ∈ word, isWord c = true) (hfield : fieldOf? suffix.toList word = none) :
    Yields suffix form (word ++ [':']) [] := by
  intro rest
  rw [List.append_assoc, List.singleton_append,
    tokens_of_misfit hform hne hword (by decide) (.inl hfield), tokens_cons suffix (by decide)]
  rfl

/-- A value of another form is passed over. -/
theorem yields_otherForm (hform : Shrinks form) {word body : List Char} (hne : word ≠ [])
    (hword : ∀ c ∈ word, isWord c = true)
    (hvalue : ∀ rest, form (dropSpace (body ++ rest)) = none)
    (hbody : Yields suffix form body []) : Yields suffix form (word ++ ':' :: body) [] := by
  intro rest
  have hnone : valueAfterColon form (':' :: (body ++ rest)) = none := hvalue rest
  rw [List.append_assoc, List.cons_append,
    tokens_of_misfit hform hne hword (by decide) (.inr hnone), tokens_cons suffix (by decide)]
  exact hbody rest

/-- A key of the suffix with a value of the form is a token. -/
theorem yields_token (hform : Shrinks form) {word body field : List Char} {value : α}
    (hne : word ≠ []) (hword : ∀ c ∈ word, isWord c = true)
    (hfield : fieldOf? suffix.toList word = some field)
    (hvalue : ∀ rest, form (dropSpace (body ++ rest)) = some (value, rest)) :
    Yields suffix form (word ++ ':' :: body) [⟨field, value⟩] := by
  intro rest
  have hsome : valueAfterColon form (':' :: (body ++ rest)) = some (value, rest) := hvalue rest
  rw [List.append_assoc, List.cons_append, tokens_of_fit hform hne hword (by decide) hfield hsome]
  rfl

end Scan

end SearchGateway.Query
