/-
  SearchGateway.Proofs.CanonicalScan

  What the scans for the filter clause, the directives and the selection pass over in
  a canonical query: every part of it that is not their own.
-/
import SearchGateway.Proofs.CanonicalClause
import SearchGateway.Proofs.Lexeme

namespace SearchGateway.Query

open SearchGateway.Text

/-! ## The recognisers -/

theorem seeksLabel_clauseHere? : SeeksLabel "filter".toList ':' clauseHere? where
  bare := by decide
  found hfound := by
    obtain ⟨rest, hrest, -⟩ := Option.bind_eq_some_iff.mp hfound
    have hlabel : "filter:".toList = "filter".toList ++ [':'] := by decide
    refine ⟨rest, ?_⟩
    rw [eq_append_of_after? hrest, hlabel, List.append_assoc, List.singleton_append]

theorem seeksLabel_directiveHere? {keyword : String} (hbare : ':' ∉ keyword.toList) :
    SeeksLabel keyword.toList ':' (directiveHere? keyword) where
  bare := hbare
  found hfound := by
    obtain ⟨rest, hrest, -⟩ := Option.bind_eq_some_iff.mp hfound
    refine ⟨rest, ?_⟩
    rw [eq_append_of_after? hrest, List.append_assoc, List.singleton_append]

theorem seeks_selectionHere? : Seeks "items".toList '\x7b' selectionHere? where
  found hfound := by
    obtain ⟨rest, hrest, hbody⟩ := Option.bind_eq_some_iff.mp hfound
    obtain ⟨body, hbody, -⟩ := Option.bind_eq_some_iff.mp hbody
    -- the gap is the whitespace that is dropped in front of the brace
    have hsplit : rest.takeWhile isSpace ++ dropSpace rest = rest :=
      List.takeWhile_append_dropWhile
    cases hbrace : dropSpace rest with
    | nil =>
      rw [hbrace] at hbody
      cases hbody
    | cons c behind =>
      rw [hbrace, enclosed?] at hbody
      split at hbody
      · rename_i hc
        refine ⟨rest.takeWhile isSpace, behind,
          fun d hd => List.all_eq_true.mp List.all_takeWhile d hd, ?_⟩
        rw [eq_append_of_after? hrest, List.append_assoc, ← hc, ← hbrace, hsplit]
      · cases hbody

/-- What the scans of a whole query look for. -/
def scanKeywords : List (List Char) :=
  ["filter".toList, "limit".toList, "offset".toList, "items".toList]

/-- The characters that close a part of a canonical query. -/
def stops : List Char := ['"', ']', '(', ')', '\x7d']

/-- A recogniser with a keyword and a mark behind it that passes over all parts of a canonical query
    in which they do not stand. -/
structure Oblivious {α : Type} (keyword : List Char) (mark : Char)
    (recognise : List Char → Option α) : Prop where
  mark_mem : mark = ':' ∨ mark = '\x7b'
  keyword_mem : keyword ∈ scanKeywords
  /-- A part without a mark. -/
  stop : ∀ {q : List Char} {c : Char}, mark ∉ q → c ∈ stops → Blind recognise (q ++ [c])
  /-- A label that does not end in the keyword. -/
  label : ∀ {w : List Char}, ':' ∉ w → '\x7b' ∉ w → ¬ keyword <:+ w →
    Blind recognise (w ++ [':'])
  /-- A part without letters. -/
  aside : ∀ {p : List Char}, p.any Char.isAlpha = false → Blind recognise p

section Oblivious

variable {α : Type} {recognise : List Char → Option α} {keyword : List Char} {mark : Char}

theorem blind_stops (h : Seeks keyword mark recognise)
    (hmark : mark = ':' ∨ mark = '\x7b')
    (hkeyword : keyword ∈ scanKeywords)
    {q : List Char} {c : Char} (hq : mark ∉ q) (hc : c ∈ stops) : Blind recognise (q ++ [c]) := by
  have hletters : ∀ keyword ∈ scanKeywords,
      keyword.any stops.contains = false := by decide
  have hspace : stops.any isSpace = false := by decide
  have hmarks : ':' ∉ stops ∧ '\x7b' ∉ stops := by decide
  refine h.blind_stop hq ?_ ?_ ?_
  · intro hmem
    exact List.any_eq_false.mp (hletters keyword hkeyword) c hmem (List.contains_iff_mem.mpr hc)
  · simpa using List.any_eq_false.mp hspace c hc
  · rintro rfl
    rcases hmark with rfl | rfl
    · exact hmarks.1 hc
    · exact hmarks.2 hc

theorem blind_aside (h : Seeks keyword mark recognise)
    (hkeyword : keyword ∈ scanKeywords)
    {p : List Char} (hp : p.any Char.isAlpha = false) : Blind recognise p := by
  have hletters : ∀ keyword ∈ scanKeywords,
      keyword.head?.any Char.isAlpha = true := by decide
  cases keyword with
  | nil => exact nomatch hletters [] hkeyword
  | cons k keyword =>
    have hk : k.isAlpha = true := hletters _ hkeyword
    exact h.blind_of_notMem fun hmem => List.any_eq_false.mp hp k hmem hk

theorem oblivious_of_seeksLabel (h : SeeksLabel keyword ':' recognise)
    (hkeyword : keyword ∈ scanKeywords) :
    Oblivious keyword ':' recognise where
  mark_mem := .inl rfl
  keyword_mem := hkeyword
  stop hq hc := blind_stops h.seeks (.inl rfl) hkeyword hq hc
  label hcolon _ hending := h.blind_label hcolon hending
  aside hp := blind_aside h.seeks hkeyword hp

theorem oblivious_selectionHere? : Oblivious "items".toList '\x7b' selectionHere? where
  mark_mem := .inr rfl
  keyword_mem := by decide
  stop hq hc := blind_stops seeks_selectionHere? (.inr rfl) (by decide) hq hc
  label _ hbrace _ := seeks_selectionHere?.blind_stop hbrace (by decide) (by decide) (by decide)
  aside hp := blind_aside seeks_selectionHere? (by decide) hp

/-! ## Parts of a query -/

theorem any_isAlpha_intText (n : Int) : (Json.intText n).any Char.isAlpha = false := by
  have hdigits : (Nat.toDigits 10 n.natAbs).any Char.isAlpha = false :=
    List.any_eq_false.mpr fun c hc =>
      Json.of_mem_toDigits (p := fun c => ¬ c.isAlpha = true) (by decide) hc
  unfold Json.intText
  split
  · rw [List.any_cons, hdigits]
    decide
  · exact hdigits

namespace Oblivious

/-- No mark is a word character. -/
theorem mark_notMem_of_isWord (h : Oblivious keyword mark recognise) {cs : List Char}
    (hcs : ∀ c ∈ cs, isWord c = true) : mark ∉ cs := by
  intro hmem
  have hword := hcs mark hmem
  rcases h.mark_mem with rfl | rfl
  · exact absurd hword (by decide)
  · exact absurd hword (by decide)

theorem mark_notMem_plain (h : Oblivious keyword mark recognise) (text : PlainText) :
    mark ∉ text.chars := by
  intro hmem
  obtain ⟨-, hopen, -, hcolon⟩ := text.ne_of_mem hmem
  rcases h.mark_mem with rfl | rfl
  · exact hcolon rfl
  · exact hopen rfl

theorem mark_ne (h : Oblivious keyword mark recognise) {c : Char} (hcolon : c ≠ ':')
    (hbrace : c ≠ '\x7b') : c ≠ mark := by
  rcases h.mark_mem with rfl | rfl
  · exact hcolon
  · exact hbrace

/-- No key ends in a keyword. -/
theorem not_suffix_key (h : Oblivious keyword mark recognise) {suffix : String}
    (hsuffix : suffix ∈ keySuffixes) (field : Word) : ¬ keyword <:+ field.key suffix := by
  have hall : ∀ suffix ∈ keySuffixes,
      ∀ keyword ∈ scanKeywords,
        ¬ keyword <:+ keyEnding suffix ∧ ¬ keyEnding suffix <:+ keyword := by decide +kernel
  obtain ⟨hkeyword, hending⟩ := hall suffix hsuffix keyword h.keyword_mem
  intro hends
  -- the keyword would end in the ending of the key or the other way round
  have hown : keyEnding suffix <:+ field.key suffix := List.suffix_append _ _
  rcases List.suffix_or_suffix_of_suffix hends hown with hshort | hlong
  · exact hkeyword hshort
  · exact hending hlong

theorem blind_key (h : Oblivious keyword mark recognise) {suffix : String}
    (hsuffix : suffix ∈ keySuffixes) (field : Word) :
    Blind recognise (field.key suffix ++ [':']) := by
  have hword := isWord_key hsuffix field
  refine h.label (fun hmem => ?_) (fun hmem => ?_) (h.not_suffix_key hsuffix field)
  · exact absurd (hword _ hmem) (by decide)
  · exact absurd (hword _ hmem) (by decide)

theorem blind_quote (h : Oblivious keyword mark recognise) (text : PlainText) :
    Blind recognise (' ' :: text.quote) := by
  have hspace : ' ' ≠ mark := h.mark_ne (by decide) (by decide)
  have hquote : '"' ≠ mark := h.mark_ne (by decide) (by decide)
  have hq : mark ∉ ' ' :: '"' :: text.chars := by
    simp [hspace.symm, hquote.symm, h.mark_notMem_plain text]
  exact h.stop hq (by decide)

theorem blind_listBody (h : Oblivious keyword mark recognise) (first : Element)
    (others : List Element) :
    Blind recognise (' ' :: '[' :: (listBody first others ++ [']'])) := by
  have hspace : ' ' ≠ mark := h.mark_ne (by decide) (by decide)
  have hcomma : ',' ≠ mark := h.mark_ne (by decide) (by decide)
  have hquote : '"' ≠ mark := h.mark_ne (by decide) (by decide)
  have hbody : mark ∉ listBody first others :=
    notMem_listBody (by simp [hcomma.symm, hspace.symm]) hquote.symm
      fun element => h.mark_notMem_plain element.toPlainText
  have hbracket : '[' ≠ mark := h.mark_ne (by decide) (by decide)
  have hq : mark ∉ ' ' :: '[' :: listBody first others := by
    simp [hspace.symm, hbracket.symm, hbody]
  exact h.stop hq (by decide)

theorem blind_label (h : Oblivious keyword mark recognise) (name : String)
    (hbare : ':' ∉ name.toList ∧ '\x7b' ∉ name.toList) (hending : ¬ keyword <:+ name.toList) :
    Blind recognise (name.toList ++ [':']) :=
  h.label hbare.1 hbare.2 hending

theorem blind_rangeBody (h : Oblivious keyword mark recognise) (low high : PlainText) :
    Blind recognise (rangeBody low high) := by
  have hall : ∀ keyword ∈ scanKeywords,
      ¬ keyword <:+ "value".toList ∧ ¬ keyword <:+ "highValue".toList := by decide
  obtain ⟨hvalue, hhighValue⟩ := hall keyword h.keyword_mem
  -- a range is cut at its labels and its quotes, and each piece is passed over
  have hopen : Blind recognise " \x7b ".toList := h.aside (by decide)
  have hcomma : Blind recognise ", ".toList := h.aside (by decide)
  have hlow := (h.blind_label "value" (by decide) hvalue).append (h.blind_quote low)
  have hhigh := (h.blind_label "highValue" (by decide) hhighValue).append
    (h.blind_quote high)
  have htext := ((hopen.append hlow).append hcomma).append hhigh
  simpa [rangeBody] using htext

theorem blind_token (h : Oblivious keyword mark recognise) (token : QueryToken) :
    Blind recognise token.text := by
  cases token with
  | scalar field operator value =>
    have htext := (h.blind_key operator.suffix_mem field).append (h.blind_quote value)
    simpa [QueryToken.text, QueryToken.openText, QueryToken.closing] using htext
  | list field membership first others =>
    have htext := (h.blind_key membership.suffix_mem field).append (h.blind_listBody first others)
    simpa [QueryToken.text, QueryToken.openText, QueryToken.closing] using htext
  | range field low high =>
    have hclose : Blind recognise " \x7d".toList := h.aside (by decide)
    have htext := ((h.blind_key between_mem field).append (h.blind_rangeBody low high)).append
      hclose
    simpa [QueryToken.text, QueryToken.openText, QueryToken.closing] using htext

theorem blind_separator (h : Oblivious keyword mark recognise) :
    Blind recognise ", ".toList :=
  h.aside (by decide)

theorem blind_filterArgument (h : Oblivious keyword mark recognise)
    (hkeyword : keyword ≠ "filter".toList) {query : CanonicalQuery} :
    ∀ argument ∈ query.filterArgument?.toList, Blind recognise argument := by
  intro argument hargument
  rw [Option.mem_toList] at hargument
  have hall : ∀ keyword ∈ scanKeywords,
      keyword ≠ "filter".toList → ¬ keyword <:+ "filter".toList := by decide
  have hlabel := h.blind_label "filter" (by decide) (hall _ h.keyword_mem hkeyword)
  have hopen : Blind recognise " \x7b ".toList := h.aside (by decide)
  have hclose : Blind recognise " \x7d".toList := h.aside (by decide)
  have htokens : Blind recognise (", ".toList.intercalate (query.tokens.map (·.text))) :=
    h.blind_separator.intercalate (by simpa using fun token _ => h.blind_token token)
  have htext := ((hlabel.append hopen).append htokens).append hclose
  unfold CanonicalQuery.filterArgument? at hargument
  split at hargument
  · -- a clause without tokens is no argument
    exact nomatch hargument
  · rw [← Option.some.inj hargument]
    simpa using htext

theorem blind_directive (h : Oblivious keyword mark recognise) {name : String}
    (hname : name ∈ ["limit", "offset"]) (hkeyword : keyword ≠ name.toList)
    {value? : Option Int64} :
    ∀ argument ∈ (value?.map (CanonicalQuery.directive name)).toList,
      Blind recognise argument := by
  have hall : ∀ name ∈ ["limit", "offset"],
      ∀ keyword ∈ scanKeywords,
        keyword ≠ name.toList → (':' ∉ name.toList ∧ '\x7b' ∉ name.toList) ∧
          ¬ keyword <:+ name.toList := by decide
  obtain ⟨hbare, hending⟩ := hall name hname keyword h.keyword_mem hkeyword
  intro argument hmem
  obtain ⟨value, -, rfl⟩ := Option.map_eq_some_iff.mp (Option.mem_toList.mp hmem)
  have hdigits : Blind recognise (' ' :: Json.intText value.toInt) :=
    h.aside (by simpa using any_isAlpha_intText value.toInt)
  have htext := (h.blind_label name hbare hending).append hdigits
  simpa [CanonicalQuery.directive] using htext

/-- The arguments of a query are passed over when none of them begins with the keyword. -/
theorem blind_arguments (h : Oblivious keyword mark recognise) {query : CanonicalQuery}
    (hfilter : query.filterArgument? ≠ none → keyword ≠ "filter".toList)
    (hlimit : query.limit ≠ none → keyword ≠ "limit".toList)
    (hoffset : query.offset ≠ none → keyword ≠ "offset".toList) :
    ∀ argument ∈ query.arguments, Blind recognise argument := by
  intro argument hmem
  simp only [CanonicalQuery.arguments, List.mem_append] at hmem
  rcases hmem with (hmem | hmem) | hmem
  · refine h.blind_filterArgument (hfilter fun hnone => ?_) argument hmem
    rw [hnone] at hmem
    exact nomatch hmem
  · refine h.blind_directive (by decide) (hlimit fun hnone => ?_) argument hmem
    rw [hnone] at hmem
    exact nomatch hmem
  · refine h.blind_directive (by decide) (hoffset fun hnone => ?_) argument hmem
    rw [hnone] at hmem
    exact nomatch hmem

end Oblivious

end Oblivious

end SearchGateway.Query
