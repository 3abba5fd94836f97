/-
  SearchGateway.Proofs.Words

  The words of a text by their places.  A word stands alone where no word character
  touches it; the words of a text are the runs of word characters that stand alone in
  it, from left to right, and texts that do not touch in a word have their words one
  behind the other.
-/
import SearchGateway.Proofs.Scanning

namespace SearchGateway.Text

/-! ## Ends of texts -/

/-- A text does not start with a word character. -/
def StartsOutside (cs : List Char) : Prop :=
  ∀ c ∈ cs.head?, isWord c = false

/-- A text does not end in a word character. -/
def EndsOutside (cs : List Char) : Prop :=
  ∀ c ∈ cs.getLast?, isWord c = false

theorem startsOutside_nil : StartsOutside [] := fun _ h => nomatch h

theorem endsOutside_nil : EndsOutside [] := fun _ h => nomatch h

theorem startsOutside_cons {c : Char} {cs : List Char} :
    StartsOutside (c :: cs) ↔ isWord c = false := by
  simp [StartsOutside]

theorem EndsOutside.append {first second : List Char} (hfirst : EndsOutside first)
    (hsecond : EndsOutside second) : EndsOutside (first ++ second) := by
  intro c hc
  rw [List.getLast?_append] at hc
  cases hlast : second.getLast? with
  | none =>
    rw [hlast] at hc
    exact hfirst c hc
  | some d =>
    rw [hlast] at hc
    obtain rfl : d = c := Option.some.inj hc
    exact hsecond d hlast

/-- Only the last piece of a text decides how it ends. -/
theorem endsOutside_append {front cs : List Char} (hne : cs ≠ []) :
    EndsOutside (front ++ cs) ↔ EndsOutside cs := by
  obtain ⟨c, cs, rfl⟩ := List.exists_cons_of_ne_nil hne
  rw [EndsOutside, EndsOutside, List.getLast?_append, List.getLast?_cons, Option.some_or]

theorem endsOutside_singleton {c : Char} (h : isWord c = false) : EndsOutside [c] := by
  simp [EndsOutside, h]

theorem EndsOutside.cons {c : Char} {cs : List Char} (hc : isWord c = false)
    (hcs : EndsOutside cs) : EndsOutside (c :: cs) :=
  (endsOutside_singleton hc).append hcs

/-- The last character decides whether what follows goes on with a word. -/
theorem endsInWord_eq_false_iff (cs : List Char) :
    endsInWord false cs = false ↔ EndsOutside cs := by
  obtain rfl | ⟨init, last, rfl⟩ := List.eq_nil_or_concat cs
  · exact iff_of_true rfl endsOutside_nil
  · rw [List.concat_eq_append, endsInWord_concat]
    simp [EndsOutside]

/-! ## Texts side by side -/

theorem wordsOnto_append_of_outside {current first second : List Char}
    (h : endsInWord (!current.isEmpty) first = false ∨ StartsOutside second) :
    wordsOnto current (first ++ second) = wordsOnto current first ++ words second := by
  -- the induction is on the first text; `current` is what has been read of its last word
  induction first generalizing current with
  | nil =>
    cases current with
    | nil => rfl
    | cons d current =>
      have hsecond : StartsOutside second := h.resolve_left (by simp [endsInWord])
      cases second with
      | nil => rfl
      | cons c second =>
        have hc : isWord c = false := startsOutside_cons.mp hsecond
        simp [wordsOnto, words, hc]
  | cons c first ih =>
    rw [endsInWord_cons] at h
    rw [List.cons_append, wordsOnto, wordsOnto]
    cases hc : isWord c with
    | true =>
      rw [hc] at h
      exact ih h
    | false =>
      rw [hc] at h
      -- whatever was read of a word, behind this character nothing is
      have hrest : wordsOnto [] (first ++ second) = wordsOnto [] first ++ words second := ih h
      simp only [Bool.false_eq_true, if_false, hrest]
      split <;> rfl

/-- The words of two texts that do not touch in a word are those of the first and then those of the
    second. -/
theorem words_append_of_outside {first second : List Char}
    (h : EndsOutside first ∨ StartsOutside second) :
    words (first ++ second) = words first ++ words second :=
  wordsOnto_append_of_outside (h.imp_left (endsInWord_eq_false_iff first).mpr)

theorem wordsOnto_run {run : List Char} (hrun : ∀ c ∈ run, isWord c = true) (current : List Char)
    (hne : current ≠ [] ∨ run ≠ []) : wordsOnto current run = [current.reverse ++ run] := by
  induction run generalizing current with
  | nil =>
    have hcurrent : ¬ current.isEmpty = true := by simpa using hne
    rw [wordsOnto, if_neg hcurrent, List.append_nil]
  | cons c run ih =>
    rw [List.forall_mem_cons] at hrun
    rw [wordsOnto, if_pos hrun.1, ih hrun.2 _ (.inl (List.cons_ne_nil _ _)), List.reverse_cons,
      List.append_assoc, List.singleton_append]

/-- A run of word characters is one word. -/
theorem words_run {run : List Char} (hne : run ≠ []) (hrun : ∀ c ∈ run, isWord c = true) :
    words run = [run] :=
  wordsOnto_run hrun [] (.inr hne)

/-! ## Words that stand alone -/

/-- A word stands alone in a text behind a piece of it: no word character touches it. -/
def StandsAlone (cs before word : List Char) : Prop :=
  ∃ behind, cs = before ++ (word ++ behind) ∧ EndsOutside before ∧ StartsOutside behind

/-- A run of word characters that stands alone is a word of the text, behind the words in front of
    it. -/
theorem words_of_parts {before word behind : List Char} (hne : word ≠ [])
    (hword : ∀ c ∈ word, isWord c = true) (hbefore : EndsOutside before)
    (hbehind : StartsOutside behind) :
    words (before ++ (word ++ behind)) = words before ++ word :: words behind := by
  rw [words_append_of_outside (.inl hbefore), words_append_of_outside (.inr hbehind),
    words_run hne hword, List.singleton_append]

/-- A word of a text stands alone in it, behind the words in front of it. -/
theorem exists_parts_of_words {cs word : List Char} {front rear : List (List Char)}
    (h : words cs = front ++ word :: rear) :
    ∃ before behind, cs = before ++ (word ++ behind) ∧ EndsOutside before ∧
      StartsOutside behind ∧ words before = front := by
  -- the text is taken apart at its first character that is no word character
  induction hlength : cs.length using Nat.strongRecOn generalizing cs front with
  | ind n ih =>
    rcases exists_run isWord cs with hrun | ⟨run, c, rest, hrun, hc, rfl⟩
    · cases cs with
      | nil => exact absurd h.symm (by simp [words, wordsOnto])
      | cons d ds =>
        rw [words_run (List.cons_ne_nil d ds) hrun] at h
        obtain ⟨rfl, hword⟩ : front = [] ∧ word = d :: ds := by
          cases front with
          | nil => exact ⟨rfl, (List.cons.inj h).1.symm⟩
          | cons first front => simp at h
        exact ⟨[], [], by simp [hword], endsOutside_nil, startsOutside_nil, rfl⟩
    · -- what is behind that character is shorter, and its words follow the run
      have hbehind (front' : List (List Char)) (hwords : words rest = front' ++ word :: rear) :
          ∃ before behind, rest = before ++ (word ++ behind) ∧ EndsOutside before ∧
            StartsOutside behind ∧ words before = front' :=
        ih rest.length (by simp [← hlength]; omega) hwords rfl
      by_cases hnil : run = []
      · rw [hnil, List.nil_append, words_cons hc] at h
        obtain ⟨before, behind, hrest, hbefore, hstarts, hfront⟩ := hbehind front h
        refine ⟨c :: before, behind, by simp [hnil, hrest], hbefore.cons hc, hstarts, ?_⟩
        rw [words_cons hc, hfront]
      · rw [words_append hnil hrun hc] at h
        cases front with
        | nil =>
          obtain ⟨rfl, -⟩ := List.cons.inj h
          exact ⟨[], c :: rest, rfl, endsOutside_nil, startsOutside_cons.mpr hc, rfl⟩
        | cons first front =>
          obtain ⟨rfl, hrear⟩ := List.cons.inj h
          obtain ⟨before, behind, hrest, hbefore, hstarts, hfront⟩ := hbehind front hrear
          have hends : EndsOutside (run ++ c :: before) :=
            (endsOutside_append (List.cons_ne_nil c before)).mpr (hbefore.cons hc)
          refine ⟨run ++ c :: before, behind, by simp [hrest], hends, hstarts, ?_⟩
          rw [words_append hnil hrun hc, hfront]

/-- The words of a text are the runs of word characters that stand alone in it. -/
theorem mem_words_iff {cs word : List Char} (hne : word ≠ [])
    (hword : ∀ c ∈ word, isWord c = true) :
    word ∈ words cs ↔ ∃ before, StandsAlone cs before word := by
  constructor
  · intro hmem
    obtain ⟨front, rear, hwords⟩ := List.append_of_mem hmem
    obtain ⟨before, behind, hcs, hbefore, hbehind, -⟩ := exists_parts_of_words hwords
    exact ⟨before, behind, hcs, hbefore, hbehind⟩
  · rintro ⟨before, behind, rfl, hbefore, hbehind⟩
    rw [words_of_parts hne hword hbefore hbehind]
    simp

/-- A word that stands alone in front of another place stands alone in the piece before that
    place. -/
theorem StandsAlone.of_lt {before rest earlier word : List Char}
    (h : StandsAlone (before ++ rest) earlier word) (hword : ∀ c ∈ word, isWord c = true)
    (hbefore : EndsOutside before) (hlt : earlier.length < before.length) :
    StandsAlone before earlier word := by
  obtain ⟨behind, heq, hearlier, hbehind⟩ := h
  obtain ⟨tail, rfl⟩ : earlier <+: before :=
    List.prefix_of_prefix_length_le ⟨_, heq.symm⟩ (List.prefix_append _ _) (Nat.le_of_lt hlt)
  have htail : tail ≠ [] := by
    rintro rfl
    simp at hlt
  rw [List.append_assoc, List.append_cancel_left_eq] at heq
  rcases List.append_eq_append_iff.mp heq with ⟨reach, hword', -⟩ | ⟨gap, rfl, rfl⟩
  · -- the word reaches the end of the piece, where no word character stands
    exfalso
    have hinside : isWord (tail.getLast htail) = true :=
      hword _ (hword' ▸ List.mem_append_left reach (List.getLast_mem htail))
    have houtside : isWord (tail.getLast htail) = false :=
      (endsOutside_append htail).mp hbefore _ (List.getLast?_eq_some_getLast htail)
    simp [hinside] at houtside
  · refine ⟨gap, rfl, hearlier, ?_⟩
    cases gap with
    | nil => exact startsOutside_nil
    | cons c gap => exact startsOutside_cons.mpr (startsOutside_cons.mp hbehind)

/-- A word that stands alone in a piece stands alone in front of what follows the piece, if the piece
    does not end in a word. -/
theorem StandsAlone.append {before earlier word : List Char} (h : StandsAlone before earlier word)
    (hne : word ≠ []) (hword : ∀ c ∈ word, isWord c = true) (hbefore : EndsOutside before)
    (rest : List Char) :
    StandsAlone (before ++ rest) earlier word ∧ earlier.length < before.length := by
  obtain ⟨behind, rfl, hearlier, hbehind⟩ := h
  have hlength : 0 < word.length := List.length_pos_iff.mpr hne
  refine ⟨⟨behind ++ rest, by simp, hearlier, ?_⟩, by simp; omega⟩
  cases behind with
  | nil =>
    -- then the piece ends in the word
    have hlast := (endsOutside_append hne).mp (List.append_nil word ▸ hbefore)
    have hinside := hword _ (List.getLast_mem hne)
    rw [hlast _ (List.getLast?_eq_some_getLast hne)] at hinside
    exact absurd hinside Bool.false_ne_true
  | cons c behind => exact startsOutside_cons.mpr (startsOutside_cons.mp hbehind)

end SearchGateway.Text
