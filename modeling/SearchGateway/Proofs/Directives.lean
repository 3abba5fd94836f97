/-
  SearchGateway.Proofs.Directives

  Which integer a directive of query text gives.  A directive is its keyword at the start of a word,
  a colon, blanks, and an integer up to the last of its digits; of several the first one counts, and
  an integer that does not fit into 64 bits is none.
-/
import SearchGateway.Query.Pagination
import SearchGateway.Proofs.Decimals
import SearchGateway.Proofs.FirstPlaces
import SearchGateway.Proofs.Reading

namespace SearchGateway.Query

open SearchGateway.Text
open SearchGateway.Json (IsDecimal IsInt64)

/-! ## Digits of any script -/

/-- The digits beyond ASCII are no whitespace. -/
theorem digitRanges_apart : ∀ digits ∈ digitRanges, ∀ spaces ∈ spaceRanges,
    digits.2 < spaces.1 ∨ spaces.2 < digits.1 := by
  decide +kernel

theorem spaceRanges_apart : ∀ spaces ∈ spaceRanges, spaces.2 < 48 ∨ 57 < spaces.1 := by
  decide

theorem isSpace_of_isDecimalDigit {c : Char} (h : isDecimalDigit c = true) : isSpace c = false := by
  rw [isSpace, inRanges, List.any_eq_false]
  intro spaces hspaces
  rw [Bool.and_eq_true, decide_eq_true_eq, decide_eq_true_eq, not_and_or]
  unfold isDecimalDigit at h
  split at h
  · obtain ⟨hlow, hhigh⟩ := Char.isDigit_iff_toNat.mp h
    have hapart := spaceRanges_apart spaces hspaces
    have hfirst : '0'.toNat = 48 := rfl
    have hlast : '9'.toNat = 57 := rfl
    omega
  · obtain ⟨digits, hdigits, hcode⟩ := List.any_eq_true.mp h
    rw [Bool.and_eq_true, decide_eq_true_eq, decide_eq_true_eq] at hcode
    have hapart := digitRanges_apart digits hdigits spaces hspaces
    omega

theorem isDecimalDigit_of_isDigit {c : Char} (h : c.isDigit = true) :
    isDecimalDigit c = true := by
  have hlast : '9'.toNat < 128 := by decide
  rw [isDecimalDigit, if_pos (Nat.lt_of_le_of_lt (Char.isDigit_iff_toNat.mp h).2 hlast), h]

theorem ne_minus_of_isDecimalDigit {c : Char} (h : isDecimalDigit c = true) : c ≠ '-' := by
  rintro rfl
  exact absurd h (by decide)

/-! ## Texts of integers -/

/-- The text of an integer: an optional minus sign and one or more digits of any script. -/
def IsIntegerText (text : List Char) : Prop :=
  ∃ digits, digits ≠ [] ∧ (∀ c ∈ digits, isDecimalDigit c = true) ∧
    (text = digits ∨ text = '-' :: digits)

/-- A text does not go on with a digit. -/
def PastDigits (behind : List Char) : Prop :=
  ∀ c ∈ behind.head?, isDecimalDigit c = false

theorem takeWhile_eq_iff {p : Char → Bool} {cs run : List Char} :
    cs.takeWhile p = run ↔
      (∀ c ∈ run, p c = true) ∧
        ∃ behind, cs = run ++ behind ∧ ∀ c ∈ behind.head?, p c = false := by
  constructor
  · rintro rfl
    refine ⟨List.all_eq_true.mp List.all_takeWhile, cs.dropWhile p,
      List.takeWhile_append_dropWhile.symm, fun c hc => ?_⟩
    have hhead := List.head?_dropWhile_not p cs
    rw [Option.mem_def.mp hc] at hhead
    exact hhead
  · rintro ⟨hrun, behind, rfl, hbehind⟩
    cases behind with
    | nil => rw [List.takeWhile_append_of_pos hrun, List.takeWhile_nil, List.append_nil]
    | cons c behind => rw [takeWhile_run hrun (hbehind c rfl)]

/-- The text of an integer is what is left of it and what follows when blanks are dropped. -/
theorem IsIntegerText.dropSpace_append {gap text : List Char} (h : IsIntegerText text)
    (hgap : isBlank gap = true) (behind : List Char) :
    dropSpace (gap ++ (text ++ behind)) = text ++ behind := by
  refine Text.dropSpace_append hgap ?_
  obtain ⟨digits, hne, hdigits, rfl | rfl⟩ := h
  · obtain ⟨c, cs, rfl⟩ := List.exists_cons_of_ne_nil hne
    intro d hd
    obtain rfl : c = d := Option.some.inj hd
    exact isSpace_of_isDecimalDigit (hdigits c List.mem_cons_self)
  · intro d hd
    obtain rfl : '-' = d := Option.some.inj hd
    decide

/-- A run of digits that is not empty, behind a sign. -/
theorem signed_run_eq_some_iff {sign rest text : List Char} :
    (if (rest.takeWhile isDecimalDigit).isEmpty then none
        else some (sign ++ rest.takeWhile isDecimalDigit)) = some text ↔
      ∃ digits, digits ≠ [] ∧ (∀ c ∈ digits, isDecimalDigit c = true) ∧ text = sign ++ digits ∧
        ∃ behind, rest = digits ++ behind ∧ PastDigits behind := by
  constructor
  · intro h
    obtain ⟨hdigits, hbehind⟩ := takeWhile_eq_iff.mp (Eq.refl (rest.takeWhile isDecimalDigit))
    split at h
    · exact nomatch h
    · rename_i hne
      rw [List.isEmpty_iff] at hne
      exact ⟨_, hne, hdigits, (Option.some.inj h).symm, hbehind⟩
  · rintro ⟨digits, hne, hdigits, rfl, hbehind⟩
    rw [takeWhile_eq_iff.mpr ⟨hdigits, hbehind⟩, if_neg (by rwa [List.isEmpty_iff])]

/-- The text of an integer goes up to the last of its digits. -/
theorem integerText?_eq_some_iff {cs text : List Char} :
    integerText? cs = some text ↔
      IsIntegerText text ∧ ∃ behind, cs = text ++ behind ∧ PastDigits behind := by
  unfold integerText?
  split
  rename_i sign rest hsign
  rw [signed_run_eq_some_iff]
  constructor
  · rintro ⟨digits, hne, hdigits, rfl, behind, rfl, hbehind⟩
    split at hsign
    · obtain ⟨rfl, rfl⟩ := Prod.mk.inj hsign
      exact ⟨⟨digits, hne, hdigits, .inr rfl⟩, behind, rfl, hbehind⟩
    · obtain ⟨rfl, rfl⟩ := Prod.mk.inj hsign
      exact ⟨⟨digits, hne, hdigits, .inl rfl⟩, behind, rfl, hbehind⟩
  · rintro ⟨⟨digits, hne, hdigits, htext⟩, behind, rfl, hbehind⟩
    split at hsign
    · rename_i tail hcs
      obtain ⟨rfl, rfl⟩ := Prod.mk.inj hsign
      rcases htext with rfl | rfl
      · -- the first digit is no minus sign
        obtain ⟨c, cs, rfl⟩ := List.exists_cons_of_ne_nil hne
        exact absurd (List.cons.inj hcs).1
          (ne_minus_of_isDecimalDigit (hdigits c List.mem_cons_self))
      · exact ⟨digits, hne, hdigits, rfl, behind, (List.cons.inj hcs).2.symm, hbehind⟩
    · rename_i hminus
      obtain ⟨rfl, rfl⟩ := Prod.mk.inj hsign
      rcases htext with rfl | rfl
      · exact ⟨text, hne, hdigits, rfl, behind, rfl, hbehind⟩
      · exact absurd rfl (hminus (digits ++ behind))

/-! ## Directives in a text -/

/-- A directive as it is written, with what stands behind its integer. -/
def directiveChars (keyword : String) (gap text behind : List Char) : List Char :=
  keyword.toList ++ ':' :: (gap ++ (text ++ behind))

theorem directiveHere?_eq_some_iff {keyword : String} {cs text : List Char} :
    directiveHere? keyword cs = some text ↔ ∃ gap behind, isBlank gap = true ∧
      IsIntegerText text ∧ PastDigits behind ∧ cs = directiveChars keyword gap text behind := by
  unfold directiveHere? directiveChars
  constructor
  · intro h
    obtain ⟨rest, hrest, hinteger⟩ := Option.bind_eq_some_iff.mp h
    obtain ⟨gap, hgap, hdrop⟩ := exists_gap rest
    obtain ⟨htext, behind, hsplit, hbehind⟩ := integerText?_eq_some_iff.mp hinteger
    refine ⟨gap, behind, hgap, htext, hbehind, ?_⟩
    rw [← hsplit, ← hdrop, eq_append_of_after? hrest, List.append_assoc, List.singleton_append]
  · rintro ⟨gap, behind, hgap, htext, hbehind, rfl⟩
    have hafter := after?_append (keyword.toList ++ [':']) (gap ++ (text ++ behind))
    rw [List.append_assoc, List.singleton_append] at hafter
    rw [hafter]
    show integerText? (dropSpace (gap ++ (text ++ behind))) = some text
    rw [htext.dropSpace_append hgap]
    exact integerText?_eq_some_iff.mpr ⟨htext, behind, rfl, hbehind⟩

/-- Behind a piece of a text that does not end in a word character stands a directive with the text
    of an integer. -/
def DirectiveAt (keyword : String) (cs before text : List Char) : Prop :=
  ∃ gap behind, cs = before ++ directiveChars keyword gap text behind ∧ EndsOutside before ∧
    isBlank gap = true ∧ IsIntegerText text ∧ PastDigits behind

/-- The first directive of a text. -/
structure FirstDirective (keyword : String) (cs before text : List Char) : Prop where
  here : DirectiveAt keyword cs before text
  first : ∀ earlier other, DirectiveAt keyword cs earlier other → before.length ≤ earlier.length

theorem directiveAt_iff {keyword : String} {cs before text : List Char} :
    DirectiveAt keyword cs before text ↔ EndsOutside before ∧
      ∃ rest, cs = before ++ rest ∧ directiveHere? keyword rest = some text := by
  constructor
  · rintro ⟨gap, behind, rfl, hbefore, hgap, htext, hbehind⟩
    exact ⟨hbefore, _, rfl,
      directiveHere?_eq_some_iff.mpr ⟨gap, behind, hgap, htext, hbehind, rfl⟩⟩
  · rintro ⟨hbefore, rest, rfl, hfound⟩
    obtain ⟨gap, behind, hgap, htext, hbehind, rfl⟩ := directiveHere?_eq_some_iff.mp hfound
    exact ⟨gap, behind, rfl, hbefore, hgap, htext, hbehind⟩

/-- The scan finds the first directive. -/
theorem firstMatch_directiveHere?_eq_some_iff {keyword : String} {cs text : List Char} :
    firstMatchOutsideWord (directiveHere? keyword) false cs = some text ↔
      ∃ before, FirstDirective keyword cs before text := by
  rw [firstMatchOutsideWord_false_eq_some_iff]
  constructor
  · rintro ⟨before, rest, hplace⟩
    refine ⟨before, directiveAt_iff.mpr ⟨hplace.admitted, rest, hplace.eq, hplace.found⟩, ?_⟩
    intro earlier other hother
    obtain ⟨hearlier, later, hlater, hfound⟩ := directiveAt_iff.mp hother
    refine Nat.le_of_not_lt fun hlt => ?_
    rw [hplace.first earlier later hlater hearlier hlt] at hfound
    exact nomatch hfound
  · rintro ⟨before, hdirective⟩
    obtain ⟨hbefore, rest, heq, hfound⟩ := directiveAt_iff.mp hdirective.here
    refine ⟨before, rest, heq, hbefore, hfound, fun earlier later hlater hearlier hlt => ?_⟩
    cases hother : directiveHere? keyword later with
    | none => rfl
    | some other =>
      have hat := directiveAt_iff.mpr ⟨hearlier, later, hlater, hother⟩
      exact absurd (hdirective.first earlier other hat) (Nat.not_le_of_lt hlt)

/-- A directive behind text without its keyword is the first one. -/
theorem firstDirective_of_not_infix {k : Char} {ks : List Char} {keyword : String}
    (hkeyword : keyword.toList ++ [':'] = k :: ks) (hk : k ∉ ks) {before gap text behind : List Char}
    (hbefore : EndsOutside before) (hclear : ¬ keyword.toList ++ [':'] <:+: before)
    (hgap : isBlank gap = true) (htext : IsIntegerText text) (hbehind : PastDigits behind) :
    FirstDirective keyword (before ++ directiveChars keyword gap text behind) before text := by
  refine ⟨⟨gap, behind, rfl, hbefore, hgap, htext, hbehind⟩, ?_⟩
  rintro earlier other ⟨gap', behind', heq, -⟩
  refine Nat.le_of_not_lt fun hlt => hclear ?_
  -- both directives begin with the keyword and its colon
  have hoverlap : before ++ (k :: ks ++ (gap ++ (text ++ behind))) =
      earlier ++ (k :: ks ++ (gap' ++ (other ++ behind'))) := by
    rw [← hkeyword]
    simpa [directiveChars] using heq
  rw [hkeyword]
  exact infix_of_lt hk hoverlap hlt

/-! ## The integers of directives -/

/-- A text writes an integer: an optional minus sign and one or more ASCII digits. -/
def WritesInteger (text : List Char) (n : Int) : Prop :=
  ∃ digits, digits ≠ [] ∧ (∀ c ∈ digits, c.isDigit = true) ∧
    ((text = digits ∧ n = Nat.ofDigitChars 10 digits 0) ∨
      (text = '-' :: digits ∧ n = -(Nat.ofDigitChars 10 digits 0 : Int)))

theorem foldl_digits_none (cs : List Char) :
    cs.foldl (fun n c => if c.isDigit then n.map (· * 10 + (c.toNat - 48)) else none)
      (none : Option Nat) = none := by
  induction cs with
  | nil => rfl
  | cons c cs ih => rw [List.foldl_cons, Option.map_none, ite_self, ih]

theorem natOfText?_eq_some_iff {cs : List Char} {n : Nat} :
    natOfText? cs = some n ↔
      (∀ c ∈ cs, c.isDigit = true) ∧ Nat.ofDigitChars 10 cs 0 = n := by
  -- the fold keeps the number read so far, which is what the library's fold keeps
  have hfold (m : Nat) :
      cs.foldl (fun n c => if c.isDigit then n.map (· * 10 + (c.toNat - 48)) else none) (some m) =
        some n ↔ (∀ c ∈ cs, c.isDigit = true) ∧ Nat.ofDigitChars 10 cs m = n := by
    induction cs generalizing m with
    | nil => simp
    | cons c cs ih =>
      rw [List.foldl_cons, List.forall_mem_cons, Nat.ofDigitChars_cons, Nat.mul_comm 10 m]
      cases hc : c.isDigit with
      | true => simpa [hc] using ih (m * 10 + (c.toNat - 48))
      | false => simp [foldl_digits_none]
  exact hfold 0

theorem integer_natOfText?_eq_some_iff {cs : List Char} {m : Int} :
    (natOfText? cs >>= fun n => pure (n : Int)) = some m ↔
      (∀ c ∈ cs, c.isDigit = true) ∧ (Nat.ofDigitChars 10 cs 0 : Int) = m := by
  rw [Option.bind_eq_bind, Option.bind_eq_some_iff]
  constructor
  · rintro ⟨n, hn, hm⟩
    obtain ⟨hdigits, rfl⟩ := natOfText?_eq_some_iff.mp hn
    exact ⟨hdigits, Option.some.inj hm⟩
  · rintro ⟨hdigits, rfl⟩
    exact ⟨_, natOfText?_eq_some_iff.mpr ⟨hdigits, rfl⟩, rfl⟩

/-- The integer of a directive is the one that its text writes, when that fits into 64 bits. -/
theorem int64OfText?_eq_some_iff {text : List Char} (htext : IsIntegerText text) {n : Int} :
    int64OfText? text = some n ↔ WritesInteger text n ∧ IsInt64 n := by
  unfold int64OfText?
  rw [Option.filter_eq_some_iff]
  refine and_congr ?_ (by simp [IsInt64])
  obtain ⟨written, hne, hwritten, htext⟩ := htext
  split
  · rename_i digits
    rw [Option.map_eq_some_iff]
    constructor
    · rintro ⟨m, hm, rfl⟩
      obtain ⟨hdigits, rfl⟩ := integer_natOfText?_eq_some_iff.mp hm
      rcases htext with rfl | htext
      · exact absurd rfl (ne_minus_of_isDecimalDigit (hwritten '-' List.mem_cons_self))
      · obtain rfl : digits = written := (List.cons.inj htext).2
        exact ⟨digits, hne, hdigits, .inr ⟨rfl, rfl⟩⟩
    · rintro ⟨digits', -, hdigits, ⟨rfl, -⟩ | ⟨heq, rfl⟩⟩
      · exact absurd (hdigits '-' List.mem_cons_self) (by decide)
      · obtain rfl : digits = digits' := (List.cons.inj heq).2
        exact ⟨_, integer_natOfText?_eq_some_iff.mpr ⟨hdigits, rfl⟩, rfl⟩
  · rename_i hminus
    obtain rfl : text = written := htext.resolve_right (hminus written)
    rw [Option.map_eq_some_iff]
    constructor
    · rintro ⟨m, hm, rfl⟩
      obtain ⟨hdigits, rfl⟩ := integer_natOfText?_eq_some_iff.mp hm
      exact ⟨text, hne, hdigits, .inl ⟨rfl, rfl⟩⟩
    · rintro ⟨digits', -, hdigits, ⟨rfl, rfl⟩ | ⟨heq, -⟩⟩
      · exact ⟨_, integer_natOfText?_eq_some_iff.mpr ⟨hdigits, rfl⟩, rfl⟩
      · exact absurd heq (hminus digits')

/-- The decimal text of an integer writes it. -/
theorem writesInteger_of_isDecimal {text : String} {n : Int} (h : IsDecimal text n) :
    WritesInteger text.toList n := by
  obtain ⟨digits, hdigits, htext⟩ := h
  refine ⟨digits, hdigits.nonempty, hdigits.decimal, ?_⟩
  rw [htext, hdigits.value]
  split
  · exact .inr ⟨rfl, by omega⟩
  · exact .inl ⟨rfl, by omega⟩

theorem writesInteger_intText (n : Int) : WritesInteger (Json.intText n) n := by
  have hdecimal : IsDecimal (String.ofList (Json.intText n)) n := Json.isDecimal_iff.mpr rfl
  have hwrites := writesInteger_of_isDecimal hdecimal
  rwa [String.toList_ofList] at hwrites

theorem WritesInteger.isIntegerText {text : List Char} {n : Int} (h : WritesInteger text n) :
    IsIntegerText text := by
  obtain ⟨digits, hne, hdigits, htext⟩ := h
  exact ⟨digits, hne, fun c hc => isDecimalDigit_of_isDigit (hdigits c hc),
    htext.imp And.left And.left⟩

theorem WritesInteger.unique {text : List Char} {m n : Int} (hm : WritesInteger text m)
    (hn : WritesInteger text n) : m = n := by
  obtain ⟨digits, -, hdigits, ⟨rfl, rfl⟩ | ⟨rfl, rfl⟩⟩ := hm
  · obtain ⟨other, -, -, ⟨rfl, rfl⟩ | ⟨rfl, -⟩⟩ := hn
    · rfl
    · exact absurd (hdigits '-' List.mem_cons_self) (by decide)
  · obtain ⟨other, -, hother, ⟨rfl, -⟩ | ⟨heq, rfl⟩⟩ := hn
    · exact absurd (hother '-' List.mem_cons_self) (by decide)
    · rw [(List.cons.inj heq).2]

/-! ## What a keyword gives -/

/-- A keyword gives what the text of its first directive gives. -/
theorem directive?_of_first {keyword raw : String} {before text : List Char}
    (h : FirstDirective keyword raw.toList before text) :
    directive? keyword raw = int64OfText? text := by
  rw [directive?, firstMatch_directiveHere?_eq_some_iff.mpr ⟨before, h⟩, Option.bind_some]

/-- A keyword gives the integer that its first directive writes, when it fits into 64 bits. -/
theorem directive?_eq_some_iff {keyword raw : String} {n : Int} :
    directive? keyword raw = some n ↔ ∃ before text,
      FirstDirective keyword raw.toList before text ∧ WritesInteger text n ∧ IsInt64 n := by
  constructor
  · intro h
    obtain ⟨text, hfound, hvalue⟩ := Option.bind_eq_some_iff.mp h
    obtain ⟨before, hfirst⟩ := firstMatch_directiveHere?_eq_some_iff.mp hfound
    obtain ⟨gap, behind, -, -, -, htext, -⟩ := hfirst.here
    exact ⟨before, text, hfirst, (int64OfText?_eq_some_iff htext).mp hvalue⟩
  · rintro ⟨before, text, hfirst, hwrites, hfits⟩
    rw [directive?_of_first hfirst]
    exact (int64OfText?_eq_some_iff hwrites.isIntegerText).mpr ⟨hwrites, hfits⟩

/-- When the first directive writes an integer beyond 64 bits, its keyword gives none. -/
theorem directive?_of_writes {keyword raw : String} {before text : List Char} {n : Int}
    (h : FirstDirective keyword raw.toList before text) (hwrites : WritesInteger text n) :
    directive? keyword raw = if IsInt64 n then some n else none := by
  rw [directive?_of_first h]
  have hvalue (m : Int) := int64OfText?_eq_some_iff (n := m) hwrites.isIntegerText
  split
  · exact (hvalue n).mpr ⟨hwrites, ‹_›⟩
  · rename_i hfar
    refine Option.eq_none_iff_forall_ne_some.mpr fun m hm => hfar ?_
    obtain ⟨hother, hfits⟩ := (hvalue m).mp hm
    rwa [hwrites.unique hother]

end SearchGateway.Query
