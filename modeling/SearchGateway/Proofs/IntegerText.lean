/-
  SearchGateway.Proofs.IntegerText

  Which values are read as integers.  An integer is read from its decimal text, as far as
  it fits, and from no other text: fractions, exponents and a zero with a minus sign make
  doubles.
-/
import SearchGateway.Proofs.Decimals
import SearchGateway.Proofs.Reading
import SearchGateway.Proofs.SettledReaders

namespace SearchGateway.Json

open SearchGateway.Text.Utf8 (encode encodeChar_ascii encode_cons encode_injective eq_of_toUInt8_eq)

/-! ## Numerals -/

/-- A number that is not a fraction and has no exponent. -/
theorem numberBehind_of_delimited {rest : List UInt8} (h : Delimited rest) (negative : Bool)
    (found : Digits) :
    numberBehind negative found rest = (integerNumber negative found).map (·, rest) := by
  cases rest with
  | nil => rfl
  | cons b rest =>
    obtain ⟨hpoint, hexponent⟩ := not_mark_of_delimited h
    rw [numberBehind, if_neg hpoint, if_neg hexponent]

/-- A significand that took all the digits is their number. -/
theorem significand_of_dropped_eq_zero {cs : List Char} (hcs : ∀ c ∈ cs, c.isDigit = true)
    (significand taken : Nat) (h : (digits significand taken (encode cs)).1.dropped = 0) :
    (digits significand taken (encode cs)).1.significand = Nat.ofDigitChars 10 cs significand := by
  induction cs generalizing significand taken with
  | nil => rfl
  | cons c cs ih =>
    obtain ⟨hc, hcs⟩ := List.forall_mem_cons.mp hcs
    rw [encode_cons, encodeChar_digit hc, List.singleton_append] at h ⊢
    simp only [digits, digit?_toUInt8 hc] at h ⊢
    split at h
    · rename_i hfits
      rw [if_pos hfits, ih hcs _ _ h, Nat.ofDigitChars_cons, Nat.mul_comm]
      rfl
    · -- the digit that does not fit is dropped
      rw [List.takeWhile_cons_of_pos (isDigit_toUInt8 hc)] at h
      exact absurd h (Nat.succ_ne_zero _)

/-- An integer that is read is the one of its sign and its digits, and zero has no minus sign. -/
theorem of_integerNumber_eq_int {negative : Bool} {found : Digits} {m : Int}
    (h : integerNumber negative found = .ok (.int m)) : found.dropped = 0 ∧
      m = (if negative then -(found.significand : Int) else found.significand) ∧
      (negative = true → found.significand ≠ 0) := by
  have hdouble (significand : Nat) (exponent : Int) :
      (doubleOf negative significand exponent).map Number.double ≠ .ok (.int m) := by
    cases doubleOf negative significand exponent <;> exact nofun
  unfold integerNumber at h
  split at h
  · exact absurd h (hdouble _ _)
  · rename_i hdropped
    refine ⟨by simpa using hdropped, ?_⟩
    cases negative with
    | false =>
      exact ⟨(Number.int.inj (Except.ok.inj h)).symm, fun hfalse => absurd hfalse (by decide)⟩
    | true =>
      rw [if_neg (by decide)] at h
      split at h
      · exact absurd h (hdouble _ _)
      · rename_i hzero
        exact ⟨(Number.int.inj (Except.ok.inj h)).symm, fun _ hnone => hzero (.inl hnone)⟩

/-- Digits are encoded one by one. -/
theorem encode_digits {cs : List Char} (hcs : ∀ c ∈ cs, c.isDigit = true) :
    encode cs = cs.map Char.toUInt8 := by
  induction cs with
  | nil => rfl
  | cons c cs ih =>
    obtain ⟨hc, hcs⟩ := List.forall_mem_cons.mp hcs
    rw [encode_cons, encodeChar_digit hc, ih hcs, List.singleton_append, List.map_cons]

/-- A numeral is what may stand in front of the point of a number. -/
theorem IsNumeral.isWhole {cs : List Char} {n : Nat} (h : IsNumeral cs n) :
    IsWhole (encode cs) := by
  rw [encode_digits h.decimal]
  refine ⟨⟨fun hnil => h.nonempty (List.map_eq_nil_iff.mp hnil), ?_⟩, ?_⟩
  · intro b hb
    obtain ⟨c, hc, rfl⟩ := List.mem_map.mp hb
    exact isDigit_toUInt8 (h.decimal c hc)
  · intro hhead
    rw [List.head?_map, Option.map_eq_some_iff] at hhead
    obtain ⟨c, hc, hbyte⟩ := hhead
    have hdigit := h.decimal c (List.mem_of_head? hc)
    obtain rfl : c = '0' := eq_of_toUInt8_eq (toNat_lt_of_isDigit hdigit) (by decide) hbyte
    rw [h.no_leading_zero hc]
    rfl

/-- A numeral is read as the number of its digits, as far as these fit. -/
theorem IsNumeral.unsignedNumber {cs : List Char} {n : Nat} (h : IsNumeral cs n)
    {rest : List UInt8} (hrest : Delimited rest) (negative : Bool) :
    unsignedNumber negative (encode cs ++ rest) =
      (integerNumber negative (digits 0 0 (encode cs)).1).map (·, rest) := by
  rw [unsignedNumber_whole h.isWhole hrest.pastDigits, numberBehind_of_delimited hrest]

/-! ## The text of an integer -/

/-- The text of an integer is read as its sign and its digits, as far as these fit. -/
theorem IsDecimal.exists_front {text : String} {n : Int} (h : IsDecimal text n)
    {rest : List UInt8} (hrest : Delimited rest) :
    ∃ found, (found.dropped = 0 → found.significand = n.natAbs) ∧
      front (encode text.toList ++ rest) =
        (integerNumber (decide (n < 0)) found).map fun x => (.number x, rest) := by
  obtain ⟨cs, hcs, htext⟩ := h
  refine ⟨(digits 0 0 (encode cs)).1, fun hdropped => ?_, ?_⟩
  · rw [significand_of_dropped_eq_zero hcs.decimal 0 0 hdropped, hcs.value]
  · have hread := hcs.unsignedNumber hrest (decide (n < 0))
    rw [htext]
    split
    · rename_i hneg
      rw [decide_eq_true hneg] at hread ⊢
      rw [encode_cons, encodeChar_ascii (by decide), List.singleton_append, List.cons_append,
        front_minus, hread]
      cases integerNumber true (digits 0 0 (encode cs)).1 <;> rfl
    · rename_i hnonneg
      rw [decide_eq_false hnonneg] at hread ⊢
      obtain ⟨b, tail, hbytes, hb, -⟩ := hcs.isWhole.toIsDigits.exists_cons
      rw [hbytes, List.cons_append] at hread ⊢
      rw [front_digit hb, hread]
      cases integerNumber false (digits 0 0 (b :: tail)).1 <;> rfl

/-- The integer that the text of one is read as is that one. -/
theorem IsDecimal.eq_of_front {text : String} {n : Int} (h : IsDecimal text n)
    {rest rest' : List UInt8} {m : Int} (hrest : Delimited rest)
    (hread : front (encode text.toList ++ rest) = .ok (.number (.int m), rest')) :
    m = n ∧ rest' = rest := by
  obtain ⟨found, hfound, hfront⟩ := h.exists_front hrest
  rw [hfront] at hread
  cases hnumber : integerNumber (decide (n < 0)) found with
  | error fault =>
    rw [hnumber] at hread
    exact nomatch hread
  | ok x =>
    rw [hnumber] at hread
    obtain ⟨hx, rfl⟩ := Prod.mk.inj (Except.ok.inj hread)
    obtain rfl := Found.number.inj hx
    obtain ⟨hdropped, rfl, -⟩ := of_integerNumber_eq_int hnumber
    refine ⟨?_, rfl⟩
    rw [hfound hdropped]
    by_cases hneg : n < 0
    · rw [decide_eq_true hneg, if_pos rfl]
      omega
    · rw [decide_eq_false hneg, if_neg Bool.false_ne_true]
      omega

/-- An integer of 64 bits is read as it is, and any other integer is refused. -/
theorem IsDecimal.settles_int64 {text : String} {n : Int} (h : IsDecimal text n) :
    Settles int64 (encode text.toList) (if IsInt64 n then some n else none) := by
  intro gap rest hrest
  have hgap : int64 (gap.val ++ (encode text.toList ++ rest)) =
      int64 (encode text.toList ++ rest) := by
    rw [int64, integer, integer, front_gap]
  rw [hgap]
  by_cases hfits : IsInt64 n
  · -- the text is the one that is written for the integer, and that one is read back
    have hread := reads_int64 hfits rest hrest
    rw [show (Value.ofInt n).text = intText n from rfl] at hread
    rw [if_pos hfits, isDecimal_iff.mp h, String.toList_ofList, hread]
    rfl
  · rw [if_neg hfits, Option.map_none, toOption_eq_none_iff, int64, integer]
    -- what is read is a double, no number at all, or the integer itself, which is out of range
    split
    · exact ⟨_, rfl⟩
    · rename_i m rest' hfront
      obtain ⟨rfl, -⟩ := h.eq_of_front hrest hfront
      rw [if_neg fun hrange => hfits ⟨hrange.1, Int.lt_of_le_sub_one hrange.2⟩]
      exact ⟨_, rfl⟩
    · exact ⟨_, rfl⟩

theorem IsDecimal.isValue {text : String} {n : Int} (h : IsDecimal text n) :
    IsValue (encode text.toList) := by
  obtain ⟨cs, hcs, htext⟩ := h
  have hunsigned : IsUnsigned (encode cs) := by
    have hmk := IsUnsigned.mk hcs.isWhole .absent .absent
    rwa [List.append_nil, List.append_nil] at hmk
  rw [htext]
  split
  · exact .negative hunsigned
  · exact .unsigned hunsigned

theorem IsDecimal.ne_null {text : String} {n : Int} (h : IsDecimal text n) :
    encode text.toList ≠ wordText "null" := by
  intro hnull
  obtain ⟨found, -, hfront⟩ := h.exists_front delimited_nil
  have hword : front (wordText "null" ++ []) = .ok (.null, []) := rfl
  rw [hnull, hword] at hfront
  cases hnumber : integerNumber (decide (n < 0)) found <;> rw [hnumber] at hfront <;>
    exact nomatch hfront

/-! ## Values that are read as integers -/

/-- A digit is an encoded character. -/
theorem exists_char_of_isDigit {b : UInt8} (h : isDigit b = true) :
    ∃ c : Char, c.isDigit = true ∧ c.toUInt8 = b := by
  have hall : ∀ n < 256, isDigit (UInt8.ofNat n) = true →
      (Char.ofNat n).isDigit = true ∧ (Char.ofNat n).toUInt8 = UInt8.ofNat n := by
    decide +kernel
  refine ⟨Char.ofNat b.toNat, ?_⟩
  have hb := hall b.toNat b.toNat_lt
  rw [UInt8.ofNat_toNat] at hb
  exact hb h

theorem exists_chars_of_digits {bytes : List UInt8} (h : ∀ b ∈ bytes, isDigit b = true) :
    ∃ cs : List Char, (∀ c ∈ cs, c.isDigit = true) ∧ encode cs = bytes := by
  induction bytes with
  | nil => exact ⟨[], fun _ hm => absurd hm List.not_mem_nil, rfl⟩
  | cons b bytes ih =>
    rw [List.forall_mem_cons] at h
    obtain ⟨c, hc, rfl⟩ := exists_char_of_isDigit h.1
    obtain ⟨cs, hcs, rfl⟩ := ih h.2
    refine ⟨c :: cs, List.forall_mem_cons.mpr ⟨hc, hcs⟩, ?_⟩
    rw [encode_cons, encodeChar_digit hc, List.singleton_append]

/-- What may stand in front of the point of a number is a numeral. -/
theorem IsWhole.exists_numeral {text : List UInt8} (h : IsWhole text) :
    ∃ cs n, IsNumeral cs n ∧ encode cs = text := by
  obtain ⟨cs, hcs, rfl⟩ := exists_chars_of_digits h.all
  refine ⟨cs, _, ⟨fun hnil => h.ne (hnil ▸ rfl), hcs, fun hhead => ?_, rfl⟩, rfl⟩
  obtain ⟨tail, rfl⟩ := List.head?_eq_some_iff.mp hhead
  have hzero : encode ('0' :: tail) = encode ['0'] := h.no_leading_zero rfl
  exact encode_injective hzero

/-- A number that is read as an integer has no fraction and no exponent. -/
theorem IsUnsigned.exists_numeral {text : List UInt8} (h : IsUnsigned text) {negative : Bool}
    {rest : List UInt8} {m : Int} (hrest : Delimited rest)
    (hread : unsignedNumber negative (text ++ rest) = .ok (.int m, rest)) :
    ∃ cs, IsNumeral cs m.natAbs ∧ encode cs = text ∧ (m < 0 ↔ negative = true) := by
  obtain @⟨whole, fraction, exponent, hwhole, hfraction, hexponent⟩ := h
  rw [List.append_assoc, List.append_assoc,
    unsignedNumber_whole hwhole (hfraction.pastDigits hexponent hrest)] at hread
  cases hfraction with
  | present hrun =>
    rw [List.cons_append, numberBehind, if_pos rfl] at hread
    obtain ⟨x, -, hx⟩ := exists_of_map_pair hread
    cases hx
  | absent =>
    cases hexponent with
    | @present mark sign run hmark =>
      have hpoint : mark ≠ '.'.toUInt8 := by
        rcases hmark with rfl | rfl <;> decide
      rw [List.nil_append, List.cons_append, numberBehind, if_neg hpoint, if_pos hmark] at hread
      obtain ⟨x, -, hx⟩ := exists_of_map_pair hread
      cases hx
    | absent =>
      obtain ⟨cs, n, hcs, rfl⟩ := hwhole.exists_numeral
      rw [List.nil_append, List.nil_append, numberBehind_of_delimited hrest] at hread
      obtain ⟨x, hx, hpair⟩ := exists_of_map_eq_ok hread
      obtain rfl : x = .int m := (Prod.mk.inj hpair).1
      obtain ⟨hdropped, hm, hnonzero⟩ := of_integerNumber_eq_int hx
      rw [significand_of_dropped_eq_zero hcs.decimal 0 0 hdropped, hcs.value] at hm hnonzero
      refine ⟨cs, ?_, by simp, ?_⟩
      · have hn : m.natAbs = n := by
          rw [hm]
          split <;> omega
        exact hn ▸ hcs
      · cases negative with
        | false => simp at hm ⊢; omega
        | true => simp at hm hnonzero ⊢; omega

/-- A value that is read as an integer is its decimal text. -/
theorem IsValue.exists_decimal {text : List UInt8} (h : IsValue text) {rest : List UInt8} {m : Int}
    (hrest : Delimited rest)
    (hread : front (text ++ rest) = .ok (.number (.int m), rest)) :
    ∃ s, IsDecimal s m ∧ encode s.toList = text := by
  cases h with
  | nullWord => cases hread
  | trueWord => cases hread
  | falseWord => cases hread
  | unsigned h =>
    obtain ⟨b, tail, rfl, hb⟩ := h.exists_cons
    rw [List.cons_append, front_digit hb] at hread
    obtain ⟨n, hn, hfound⟩ := exists_of_map_pair hread
    obtain rfl := Found.number.inj hfound
    obtain ⟨cs, hcs, hencode, hsign⟩ := h.exists_numeral hrest hn
    have hnonneg : ¬ m < 0 := fun hneg => absurd (hsign.mp hneg) (by decide)
    refine ⟨String.ofList cs, ⟨cs, hcs, ?_⟩, ?_⟩
    · rw [String.toList_ofList, if_neg hnonneg]
    · rw [String.toList_ofList, hencode]
  | negative h =>
    rw [List.cons_append, front_minus] at hread
    obtain ⟨n, hn, hfound⟩ := exists_of_map_pair hread
    obtain rfl := Found.number.inj hfound
    obtain ⟨cs, hcs, rfl, hsign⟩ := h.exists_numeral hrest hn
    refine ⟨String.ofList ('-' :: cs), ⟨cs, hcs, ?_⟩, ?_⟩
    · rw [String.toList_ofList, if_pos (hsign.mpr rfl)]
    · rw [String.toList_ofList, encode_cons, encodeChar_ascii (by decide), List.singleton_append]
  | string =>
    rw [List.cons_append, front_quote] at hread
    obtain ⟨s, -, hfound⟩ := exists_of_map_pair hread
    cases hfound
  | array =>
    rw [arrayText_append, front_bracket] at hread
    cases hread
  | object =>
    rw [objectText_append, front_brace] at hread
    cases hread

/-! ## Natural numbers -/

/-- A text holds a natural number of a size: its decimal digits, without leading zeros. -/
def HoldsNatural (width : Nat) (text : List UInt8) (n : Nat) : Prop :=
  n < Nat.pow 2 width ∧ text = encode (Nat.toDigits 10 n)

/-- A natural number of at most 64 bits is read from its decimal digits, and from no other text. -/
theorem settles_natural_iff {width n : Nat} {expected : String} (hwidth : width ≤ 64)
    {text : List UInt8} (htext : IsValue text) :
    Settles (natural width expected) text (some n) ↔ HoldsNatural width text n := by
  constructor
  · intro h
    have hread := h .none delimited_nil
    rw [Blanks.none, List.nil_append, natural, toOption_map, Option.map_some,
      Option.map_eq_some_iff] at hread
    obtain ⟨⟨m, rest⟩, hinteger, hpair⟩ := hread
    obtain ⟨rfl, rfl⟩ := Prod.mk.inj hpair
    obtain ⟨hfront, hlow, hhigh⟩ := front_of_integer (toOption_eq_some_iff.mp hinteger)
    obtain ⟨s, ⟨cs, hcs, hs⟩, rfl⟩ :=
      htext.exists_decimal delimited_nil hfront
    have hpow : 0 < Nat.pow 2 width := Nat.two_pow_pos width
    have habs : m.natAbs = m.toNat := by omega
    refine ⟨by omega, ?_⟩
    rw [hs, if_neg (Int.not_lt.mpr hlow), hcs.eq_toDigits, habs]
  · rintro ⟨hn, rfl⟩
    obtain ⟨outcome, houtcome⟩ := settled_natural width expected _ htext
    have hread := houtcome .none delimited_nil
    have hdigits : (Value.ofNat n).text = Nat.toDigits 10 n := by
      show intText n = _
      rw [intText, if_neg (Int.not_lt.mpr (Int.natCast_nonneg n)), Int.natAbs_natCast]
    have hwritten := reads_natural expected hn hwidth [] delimited_nil
    rw [hdigits] at hwritten
    rw [Blanks.none, List.nil_append, hwritten] at hread
    cases outcome with
    | none => cases hread
    | some m =>
      obtain rfl := (Prod.mk.inj (Option.some.inj hread)).1
      exact houtcome

end SearchGateway.Json
