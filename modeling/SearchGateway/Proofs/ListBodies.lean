/-
  SearchGateway.Proofs.ListBodies

  The elements of a list body.  There is one more of them than there are commas, and
  none has whitespace at an end.  An element that is written bare or in quotes, with
  whitespace around it, is read as it is, the empty one too.
-/
import Mathlib.Data.List.Forall2
import SearchGateway.Proofs.Scanning
import SearchGateway.Query.Clause

namespace SearchGateway.Query

open SearchGateway.Text

/-! ## Written elements -/

/-- An element as it stands between two commas of a list body: bare or in quotes, with whitespace
    around it and just inside the quotes. -/
inductive Written (element : List Char) : List Char → Prop
  | bare {before behind : List Char} (hbefore : isBlank before = true)
      (hbehind : isBlank behind = true) : Written element (before ++ (element ++ behind))
  | quoted {before inside inside' behind : List Char} (hbefore : isBlank before = true)
      (hinside : isBlank inside = true) (hinside' : isBlank inside' = true)
      (hbehind : isBlank behind = true) :
      Written element (before ++ ('"' :: (inside ++ (element ++ inside') ++ ['"']) ++ behind))

/-- An element that can be written: without commas and quotes, and without whitespace at either
    end. -/
structure IsElement (element : List Char) : Prop where
  no_comma : ',' ∉ element
  no_quote : '"' ∉ element
  trimmed : IsTrimmed element

instance (element : List Char) : Decidable (IsElement element) :=
  decidable_of_iff (',' ∉ element ∧ '"' ∉ element ∧ IsTrimmed element)
    ⟨fun h => ⟨h.1, h.2.1, h.2.2⟩, fun h => ⟨h.no_comma, h.no_quote, h.trimmed⟩⟩

theorem notMem_of_isBlank {gap : List Char} (h : isBlank gap = true) {c : Char}
    (hc : isSpace c = false) : c ∉ gap := fun hmem => by
  rw [List.all_eq_true.mp h c hmem] at hc
  cases hc

theorem isTrimmed_quoted (cs : List Char) : IsTrimmed ('"' :: (cs ++ ['"'])) where
  first c hc := by
    obtain rfl := Option.some.inj hc
    decide
  last c hc := by
    rw [← List.cons_append, List.getLast?_concat] at hc
    obtain rfl := Option.some.inj hc
    decide

/-- A written element is read as it is. -/
theorem Written.listElement {element part : List Char} (h : Written element part)
    (helement : IsElement element) : listElement part = element := by
  cases h with
  | bare hbefore hbehind =>
    have hquotes : ∀ c ∈ element, (c == '"') = false := fun c hc =>
      beq_eq_false_iff_ne.mpr fun heq => helement.no_quote (heq ▸ hc)
    have hbare : trimBy (· == '"') element = element :=
      trimBy_eq_self (fun c hc => hquotes c (List.mem_of_mem_head? hc))
        fun c hc => hquotes c (List.mem_of_getLast? hc)
    rw [Query.listElement, helement.trimmed.trim_gaps hbefore hbehind, hbare,
      helement.trimmed.trim_eq]
  | @quoted _ inside inside' _ hbefore hinside hinside' hbehind =>
    have hquotes : ∀ c ∈ inside ++ (element ++ inside'), (c == '"') = false := by
      intro c hc
      refine beq_eq_false_iff_ne.mpr ?_
      rintro rfl
      rcases List.mem_append.mp hc with hc | hc
      · exact notMem_of_isBlank hinside (by decide) hc
      · rcases List.mem_append.mp hc with hc | hc
        · exact helement.no_quote hc
        · exact notMem_of_isBlank hinside' (by decide) hc
    rw [Query.listElement, (isTrimmed_quoted _).trim_gaps hbefore hbehind,
      trimBy_enclosed (by decide) hquotes, helement.trimmed.trim_gaps hinside hinside']

/-- A written element does not end at a comma of its own. -/
theorem Written.comma_notMem {element part : List Char} (h : Written element part)
    (helement : IsElement element) : ',' ∉ part := by
  have hgap {gap : List Char} (hgap : isBlank gap = true) : ',' ∉ gap :=
    notMem_of_isBlank hgap (by decide)
  cases h with
  | bare hbefore hbehind =>
    simp [hgap hbefore, hgap hbehind, helement.no_comma]
  | quoted hbefore hinside hinside' hbehind =>
    simp [hgap hbefore, hgap hinside, hgap hinside', hgap hbehind, helement.no_comma]

/-! ## List bodies -/

/-- Elements that are written with commas between them are read as they are. -/
theorem splitList_written {elements parts : List (List Char)} (hne : elements ≠ [])
    (helements : ∀ element ∈ elements, IsElement element)
    (hparts : List.Forall₂ Written elements parts) :
    splitList ([','].intercalate parts) = elements.map String.ofList := by
  have hread : (∀ part ∈ parts, ',' ∉ part) ∧ parts.map listElement = elements := by
    clear hne
    induction hparts with
    | nil => exact ⟨fun part hpart => absurd hpart List.not_mem_nil, rfl⟩
    | cons hwritten _ ih =>
      rw [List.forall_mem_cons] at helements
      obtain ⟨hcommas, hread⟩ := ih helements.2
      refine ⟨List.forall_mem_cons.mpr ⟨hwritten.comma_notMem helements.1, hcommas⟩, ?_⟩
      rw [List.map_cons, hwritten.listElement helements.1, hread]
  have hparts' : parts ≠ [] := by
    rintro rfl
    exact hne (List.forall₂_nil_right_iff.mp hparts)
  calc splitList ([','].intercalate parts)
      = (parts.map listElement).map String.ofList := by
        rw [splitList, split_intercalate hparts' hread.1, List.map_map]
        rfl
    _ = elements.map String.ofList := by rw [hread.2]

/-- What is read between two commas has neither a comma in it nor whitespace at an end. -/
theorem of_mem_splitList {body : List Char} {element : String} (h : element ∈ splitList body) :
    ',' ∉ element.toList ∧ IsTrimmed element.toList := by
  obtain ⟨part, hpart, rfl⟩ := List.mem_map.mp h
  rw [String.toList_ofList]
  refine ⟨fun hcomma => notMem_of_mem_split hpart ?_, isTrimmed_trim _⟩
  have hinner := (infix_trimBy isSpace (trimBy (· == '"') (trim part))).subset hcomma
  exact (infix_trimBy isSpace part).subset ((infix_trimBy (· == '"') (trim part)).subset hinner)

/-- A list body has an element for each stretch between its commas, trimmed; and elements that are
    written bare or in quotes, with whitespace around them and just inside the quotes, are read as
    they are. -/
theorem splitList_elements :
    (∀ body : List Char,
      (splitList body).length = body.count ',' + 1 ∧
        ∀ element ∈ splitList body, ',' ∉ element.toList ∧ IsTrimmed element.toList) ∧
    (∀ (elements : List String) (parts : List (List Char)), elements ≠ [] →
      (∀ element ∈ elements, IsElement element.toList) →
      List.Forall₂ (fun element part => Written element.toList part) elements parts →
      splitList ([','].intercalate parts) = elements) := by
  refine ⟨fun body => ⟨?_, fun element => of_mem_splitList⟩,
    fun elements parts hne helements hparts => ?_⟩
  · rw [splitList, List.length_map, length_split]
  · have hread := @splitList_written (elements.map String.toList) parts
      (by simpa using hne) (by simpa using helements) (List.forall₂_map_left_iff.mpr hparts)
    have hback : String.ofList ∘ String.toList = id := funext fun _ => String.ofList_toList
    rwa [List.map_map, hback, List.map_id] at hread

/-- Two elements in quotes, the second of them empty, between bare ones, with whitespace of several
    kinds around them. -/
theorem splitList_elements_mixed :
    splitList "open,\t\" in review\n\" , \"\" ,\u2003,".toList =
      ["open", "in review", "", "", ""] := by
  have hgap {element : String} {gap : List Char} (helement : element = "")
      (h : isBlank gap = true) : Written element.toList gap := by
    have hbare : Written [] (gap ++ ([] ++ [])) := .bare h rfl
    rw [List.nil_append, List.append_nil] at hbare
    rwa [helement]
  have hopen : Written "open".toList ([] ++ ("open".toList ++ [])) := .bare rfl rfl
  have hreview : Written "in review".toList
      (['\t'] ++ ('"' :: ([' '] ++ ("in review".toList ++ ['\n']) ++ ['"']) ++ [' '])) :=
    .quoted rfl rfl rfl rfl
  have hempty : Written "".toList ([' '] ++ ('"' :: ([] ++ ("".toList ++ []) ++ ['"']) ++ [' '])) :=
    .quoted rfl rfl rfl rfl
  have hparts : List.Forall₂ (fun element part => Written element.toList part)
      ["open", "in review", "", "", ""]
      ["open".toList, "\t\" in review\n\" ".toList, " \"\" ".toList, "\u2003".toList, []] :=
    .cons hopen (.cons hreview (.cons hempty
      (.cons (hgap rfl (by decide)) (.cons (hgap rfl rfl) .nil))))
  exact splitList_elements.2 _ _ (List.cons_ne_nil _ _) (by decide) hparts

end SearchGateway.Query
