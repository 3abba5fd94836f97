/-
  SearchGateway.Proofs.Lexeme

  What the front of a JSON text reads as, for the texts that are written: a written
  string reads as the string, a written integer as the integer.  Every statement
  leaves open what stands behind the text.
-/
import SearchGateway.Json.Lexeme
import SearchGateway.Proofs.Utf8

namespace SearchGateway.Json

open SearchGateway.Text.Utf8

/-! ## Strings -/

/-- A byte that is no quote, no backslash and no control is content of a string. -/
theorem stringBytes_plain {b : UInt8} (hquote : b ≠ '"'.toUInt8) (hslash : b ≠ '\\'.toUInt8)
    (hcontrol : 0x20 ≤ b) (taken rest : List UInt8) :
    stringBytes taken (b :: rest) = stringBytes (b :: taken) rest := by
  rw [stringBytes.eq_def]
  simp only [if_neg hquote, if_neg hslash, if_neg (UInt8.not_lt.mpr hcontrol)]

/-- Bytes beyond ASCII are content of a string. -/
theorem stringBytes_beyondAscii {bytes : List UInt8} (h : ∀ b ∈ bytes, 0x80 ≤ b.toNat)
    (taken rest : List UInt8) :
    stringBytes taken (bytes ++ rest) = stringBytes (bytes.reverse ++ taken) rest := by
  induction bytes generalizing taken with
  | nil => rfl
  | cons b bytes ih =>
    have hb : 0x80 ≤ b.toNat := h b List.mem_cons_self
    have hne : ∀ c : UInt8, c.toNat < 0x80 → b ≠ c := by
      rintro c hc rfl
      omega
    rw [List.cons_append,
      stringBytes_plain (hne _ (by decide)) (hne _ (by decide))
        (UInt8.le_iff_toNat_le.mpr (by simpa using by omega)),
      ih (fun x hx => h x (List.mem_cons_of_mem b hx)), List.reverse_cons, List.append_assoc,
      List.singleton_append]

/-- A backslash and a letter are the byte they stand for. -/
theorem stringBytes_shortEscape {letter byte : UInt8} (hletter : letter ≠ 'u'.toUInt8)
    (h : shortEscape? letter = some byte) (taken rest : List UInt8) :
    stringBytes taken ('\\'.toUInt8 :: letter :: rest) = stringBytes (byte :: taken) rest := by
  rw [stringBytes.eq_def]
  simp only [if_neg hletter, h]
  rfl

/-- A code unit that is no surrogate is the character it numbers. -/
theorem stringBytes_codeUnit {h₁ h₂ h₃ h₄ : UInt8} {n : Nat} (h : codeUnit? h₁ h₂ h₃ h₄ = some n)
    (hn : n < 0xD800) (taken rest : List UInt8) :
    stringBytes taken ('\\'.toUInt8 :: 'u'.toUInt8 :: h₁ :: h₂ :: h₃ :: h₄ :: rest)
      = stringBytes (pushChar taken (Char.ofNat n)) rest := by
  have hlow : isLowSurrogate n = false := by
    simp only [isLowSurrogate, Bool.and_eq_false_iff, decide_eq_false_iff_not]
    omega
  have hhigh : isHighSurrogate n = false := by
    simp only [isHighSurrogate, Bool.and_eq_false_iff, decide_eq_false_iff_not]
    omega
  rw [stringBytes.eq_def]
  simp only [h, hlow, hhigh]
  rfl

/-- A written hexadecimal digit has its value. -/
theorem hexValue?_hexDigit {n : Nat} (h : n < 16) :
    Text.Percent.hexValue? (hexDigit n).toUInt8 = some n := by
  revert n
  decide

/-- A written hexadecimal digit is one byte. -/
theorem encodeChar_hexDigit {n : Nat} (h : n < 16) :
    encodeChar (hexDigit n) = [(hexDigit n).toUInt8] := by
  have hascii : ∀ m < 16, (hexDigit m).toNat < 0x80 := by decide
  exact encodeChar_ascii (hascii n h)

/-- What is written for a character reads as the bytes of the character. -/
theorem stringBytes_escapeChar (c : Char) (taken rest : List UInt8) :
    stringBytes taken (encode (escapeChar c) ++ rest)
      = stringBytes ((encodeChar c).reverse ++ taken) rest := by
  unfold escapeChar
  split
  · subst c
    exact stringBytes_shortEscape (by decide) (by decide) taken rest
  split
  · subst c
    exact stringBytes_shortEscape (by decide) (by decide) taken rest
  split
  · subst c
    exact stringBytes_shortEscape (by decide) (by decide) taken rest
  split
  · subst c
    exact stringBytes_shortEscape (by decide) (by decide) taken rest
  split
  · subst c
    exact stringBytes_shortEscape (by decide) (by decide) taken rest
  split
  · obtain rfl : c = '\x08' := Char.toNat_inj.mp ‹_›
    exact stringBytes_shortEscape (by decide) (by decide) taken rest
  split
  · obtain rfl : c = '\x0C' := Char.toNat_inj.mp ‹_›
    exact stringBytes_shortEscape (by decide) (by decide) taken rest
  split
  · -- the other controls are written by their code points
    have hhigh := encodeChar_hexDigit (n := c.toNat / 16) (by omega)
    have hlow := encodeChar_hexDigit (n := c.toNat % 16) (by omega)
    have hunit : codeUnit? '0'.toUInt8 '0'.toUInt8 (hexDigit (c.toNat / 16)).toUInt8
        (hexDigit (c.toNat % 16)).toUInt8 = some c.toNat := by
      have hzero : Text.Percent.hexValue? '0'.toUInt8 = some 0 := by decide
      simp only [codeUnit?, hzero, hexValue?_hexDigit (show c.toNat / 16 < 16 by omega),
        hexValue?_hexDigit (show c.toNat % 16 < 16 by omega)]
      congr 1
      omega
    have hread := stringBytes_codeUnit hunit (by omega) taken rest
    simp only [pushChar, Char.ofNat_toNat] at hread
    simp only [encode_cons, encode_nil, hhigh, hlow]
    exact hread
  · -- any other character stands for itself, as one byte or as bytes beyond ASCII
    rename_i hquote hslash _ _ _ _ _ hcontrol
    by_cases hascii : c.toNat < 0x80
    · have hbyte : c.toUInt8.toNat = c.toNat := toNat_charByte (by omega)
      have hne : ∀ d : Char, d.toNat < 0x80 → c ≠ d → c.toUInt8 ≠ d.toUInt8 := by
        intro d hd hcd heq
        exact hcd (eq_of_toUInt8_eq (by omega) (by omega) heq)
      have hle : 0x20 ≤ c.toUInt8 := by
        rw [UInt8.le_iff_toNat_le, hbyte]
        exact Nat.not_lt.mp hcontrol
      simp only [encode_cons, encode_nil, encodeChar_ascii hascii]
      exact stringBytes_plain (hne _ (by decide) hquote) (hne _ (by decide) hslash) hle taken rest
    · simp only [encode_cons, encode_nil, List.append_nil]
      exact stringBytes_beyondAscii (fun b hb => le_of_mem_encodeChar (by omega) hb) taken rest

/-- What is written for a text, up to the closing quote, reads as the bytes of the text. -/
theorem stringBytes_escaped (cs : List Char) (taken rest : List UInt8) :
    stringBytes taken (encode (cs.flatMap escapeChar) ++ '"'.toUInt8 :: rest)
      = .ok (taken.reverse ++ encode cs, rest) := by
  induction cs generalizing taken with
  | nil =>
    rw [List.flatMap_nil, encode_nil, List.nil_append, List.append_nil, stringBytes.eq_def]
    rfl
  | cons c cs ih =>
    rw [List.flatMap_cons, encode_append, List.append_assoc, stringBytes_escapeChar, ih,
      List.reverse_append, List.reverse_reverse, List.append_assoc, encode_cons]

/-- A written string reads as the string. -/
theorem stringRest_escaped (s : String) (rest : List UInt8) :
    stringRest (encode (s.toList.flatMap escapeChar) ++ '"'.toUInt8 :: rest) = .ok (s, rest) := by
  simp only [stringRest, stringBytes_escaped, List.reverse_nil, List.nil_append, decode?_encode,
    String.ofList_toList]

/-! ## Integers -/

/-- A byte that would go on with a number. -/
def continuesNumber (b : UInt8) : Bool :=
  isDigit b || b == '.'.toUInt8 || b == 'e'.toUInt8 || b == 'E'.toUInt8

/-- What stands behind a value does not go on with a number that ends the value. -/
def Delimited (rest : List UInt8) : Prop :=
  ∀ b ∈ rest.head?, continuesNumber b = false

theorem delimited_nil : Delimited [] := by
  simp [Delimited]

theorem delimited_cons {b : UInt8} {rest : List UInt8} :
    Delimited (b :: rest) ↔ continuesNumber b = false := by
  simp [Delimited]

theorem toNat_lt_of_isDigit {c : Char} (h : c.isDigit = true) : c.toNat < 256 := by
  have hrange := (Char.isDigit_iff_toNat.mp h).2
  exact Nat.lt_of_le_of_lt hrange (by decide)

/-- A digit reads as its value. -/
theorem digit?_toUInt8 {c : Char} (h : c.isDigit = true) :
    digit? c.toUInt8 = some (c.toNat - 48) := by
  have hrange := Char.isDigit_iff_toNat.mp h
  have hbyte : c.toUInt8.toNat = c.toNat := toNat_charByte (toNat_lt_of_isDigit h)
  rw [digit?, if_pos, hbyte]
  rw [UInt8.le_iff_toNat_le, UInt8.le_iff_toNat_le, hbyte]
  exact hrange

theorem isDigit_toUInt8 {c : Char} (h : c.isDigit = true) : isDigit c.toUInt8 = true := by
  rw [isDigit, digit?_toUInt8 h]
  rfl

theorem encodeChar_digit {c : Char} (h : c.isDigit = true) : encodeChar c = [c.toUInt8] :=
  encodeChar_ascii (Nat.lt_of_le_of_lt (Char.isDigit_iff_toNat.mp h).2 (by decide))

/-- More digits make no smaller number. -/
theorem le_ofDigitChars (cs : List Char) (n : Nat) : n ≤ Nat.ofDigitChars 10 cs n := by
  induction cs generalizing n with
  | nil => exact Nat.le_refl n
  | cons c cs ih =>
    rw [Nat.ofDigitChars_cons]
    exact Nat.le_trans (by omega) (ih _)

/-- A run of digits whose number fits is read whole. -/
theorem digits_append {cs : List Char} (hcs : ∀ c ∈ cs, c.isDigit = true) {rest : List UInt8}
    (hrest : Delimited rest) (significand taken : Nat)
    (hfits : Nat.ofDigitChars 10 cs significand < UInt64.size) :
    digits significand taken (encode cs ++ rest)
      = (⟨Nat.ofDigitChars 10 cs significand, taken + cs.length, 0⟩, rest) := by
  induction cs generalizing significand taken with
  | nil =>
    cases rest with
    | nil => rfl
    | cons b rest =>
      have hb : digit? b = none := by
        have hfalse := delimited_cons.mp hrest
        simp only [continuesNumber, Bool.or_eq_false_iff, isDigit, Option.isSome_eq_false_iff,
          Option.isNone_iff_eq_none] at hfalse
        exact hfalse.1.1.1
      simp only [encode_nil, List.nil_append, digits, hb, Nat.ofDigitChars_nil, List.length_nil,
        Nat.add_zero]
  | cons c cs ih =>
    have hc : c.isDigit = true := hcs c List.mem_cons_self
    rw [Nat.ofDigitChars_cons] at hfits
    -- the library puts the factor and the digit the other way round
    have hstep : significand * 10 + (c.toNat - 48) = 10 * significand + (c.toNat - '0'.toNat) := by
      rw [Nat.mul_comm]
      rfl
    have hsize : significand * 10 + (c.toNat - 48) < UInt64.size := by
      rw [hstep]
      exact Nat.lt_of_le_of_lt (le_ofDigitChars cs _) hfits
    rw [encode_cons, encodeChar_digit hc, List.cons_append, List.nil_append, List.cons_append]
    simp only [digits, digit?_toUInt8 hc, if_pos hsize]
    rw [hstep, ih (fun x hx => hcs x (List.mem_cons_of_mem c hx)) _ _ hfits,
      Nat.ofDigitChars_cons, List.length_cons, Nat.add_assoc, Nat.add_comm 1]

theorem isDigit_toDigits (n : Nat) : ∀ c ∈ Nat.toDigits 10 n, c.isDigit = true :=
  fun _ hc => Nat.isDigit_of_mem_toDigits (by decide) (by decide) hc

/-- What holds of the ten digits holds of every digit. -/
theorem of_isDigit {p : Char → Prop} (h : ∀ d < 10, p (Char.ofNat (48 + d))) {c : Char}
    (hc : c.isDigit = true) : p c := by
  have hrange : 48 ≤ c.toNat ∧ c.toNat ≤ 57 := Char.isDigit_iff_toNat.mp hc
  have hdigit := h (c.toNat - 48) (by omega)
  have hcode : 48 + (c.toNat - 48) = c.toNat := by omega
  rwa [hcode, Char.ofNat_toNat] at hdigit

/-- What holds of the ten digits holds of every character of a written number. -/
theorem of_mem_toDigits {p : Char → Prop} (h : ∀ d < 10, p (Char.ofNat (48 + d))) {n : Nat}
    {c : Char} (hc : c ∈ Nat.toDigits 10 n) : p c :=
  of_isDigit h (isDigit_toDigits n c hc)

/-- Written natural numbers begin with a digit. -/
theorem head_toDigits (n : Nat) :
    ∃ c cs, Nat.toDigits 10 n = c :: cs ∧ c.isDigit = true := by
  have hdigits := isDigit_toDigits n
  cases h : Nat.toDigits 10 n with
  | nil => exact absurd h Nat.toDigits_ne_nil
  | cons c cs =>
    rw [h, List.forall_mem_cons] at hdigits
    exact ⟨c, cs, rfl, hdigits.1⟩

/-- Only zero is written with a leading zero. -/
theorem head?_toDigits_ne_zero {n : Nat} (hn : n ≠ 0) : (Nat.toDigits 10 n).head? ≠ some '0' := by
  induction n using Nat.strongRecOn with
  | ind n ih =>
    by_cases hlt : n < 10
    · rw [Nat.toDigits_of_lt_base hlt]
      have hdigit : ∀ m < 10, m ≠ 0 → Nat.digitChar m ≠ '0' := by decide
      simpa using hdigit n hlt hn
    · rw [Nat.toDigits_of_base_le (by decide) (by omega), List.head?_append]
      have hshorter := ih (n / 10) (by omega) (by omega)
      cases hhead : (Nat.toDigits 10 (n / 10)).head? with
      | none => exact absurd (List.head?_eq_none_iff.mp hhead) Nat.toDigits_ne_nil
      | some c => rw [hhead] at hshorter; exact hshorter

theorem eq_nil_of_toDigits_eq_zero_cons {n : Nat} {cs : List Char}
    (h : Nat.toDigits 10 n = '0' :: cs) : cs = [] := by
  by_cases hn : n = 0
  · rw [hn, Nat.toDigits_zero] at h
    exact (List.cons.inj h).2.symm
  · exact absurd (by rw [h]; rfl) (head?_toDigits_ne_zero hn)

/-- A written natural number is read whole. -/
theorem unsignedNumber_toDigits (negative : Bool) {n : Nat} (hn : n < UInt64.size)
    {rest : List UInt8} (hrest : Delimited rest) :
    ∃ count, unsignedNumber negative (encode (Nat.toDigits 10 n) ++ rest)
      = (integerNumber negative ⟨n, count, 0⟩).map (·, rest) := by
  have hread := digits_append (isDigit_toDigits n) hrest 0 0
    (by rwa [Nat.ofDigitChars_ten_toDigits])
  rw [Nat.ofDigitChars_ten_toDigits] at hread
  refine ⟨0 + (Nat.toDigits 10 n).length, ?_⟩
  obtain ⟨c, cs, hcs, hc⟩ := head_toDigits n
  rw [hcs, encode_cons, encodeChar_digit hc, List.cons_append, List.nil_append,
    List.cons_append] at hread
  -- a zero in front is the whole number, so no digit follows it
  have hzero : ¬(c.toUInt8 = '0'.toUInt8 ∧ (encode cs ++ rest).head?.any isDigit = true) := by
    rintro ⟨hbyte, hnext⟩
    have hchar : c = '0' := eq_of_toUInt8_eq (toNat_lt_of_isDigit hc) (by decide) hbyte
    obtain rfl : cs = [] := eq_nil_of_toDigits_eq_zero_cons (hchar ▸ hcs)
    cases rest with
    | nil => simp at hnext
    | cons b rest =>
      have hb := delimited_cons.mp hrest
      simp only [continuesNumber, Bool.or_eq_false_iff] at hb
      simp only [encode_nil, List.nil_append, List.head?_cons, Option.any_some, hb] at hnext
      exact absurd hnext Bool.false_ne_true
  rw [hcs, encode_cons, encodeChar_digit hc, List.cons_append, List.nil_append, List.cons_append]
  -- behind the digits there is neither a point nor an exponent
  simp only [unsignedNumber, isDigit_toUInt8 hc, if_true, if_neg hzero, hread]
  cases rest with
  | nil => rfl
  | cons b rest =>
    have hb := delimited_cons.mp hrest
    simp only [continuesNumber, Bool.or_eq_false_iff, beq_eq_false_iff_ne] at hb
    obtain ⟨⟨⟨-, hpoint⟩, hsmall⟩, hlarge⟩ := hb
    simp only [if_neg hpoint, hsmall, hlarge, or_self, if_false]

/-- A natural number without sign is the integer. -/
theorem integerNumber_of_nonneg (n count : Nat) :
    integerNumber false ⟨n, count, 0⟩ = .ok (.int n) := rfl

/-- A natural number with a minus sign is the negative integer, unless it is zero or too large. -/
theorem integerNumber_of_neg {n : Nat} (hpos : n ≠ 0) (hle : n ≤ 0x8000000000000000)
    (count : Nat) : integerNumber true ⟨n, count, 0⟩ = .ok (.int (-(n : Int))) := by
  have hfits : ¬(n = 0 ∨ 0x8000000000000000 < n) := by
    rintro (h | h)
    · exact hpos h
    · exact absurd hle (Nat.not_le.mpr h)
  simp only [integerNumber, ne_eq, not_true_eq_false, if_false, Bool.true_eq_false, if_neg hfits]

/-! ## The front of a value -/

theorem dropBlank_cons {b : UInt8} (h : isBlank b = false) (rest : List UInt8) :
    dropBlank (b :: rest) = b :: rest := by
  rw [dropBlank, List.dropWhile_cons_of_neg (by rw [h]; exact Bool.false_ne_true)]

theorem front_quote (rest : List UInt8) :
    front ('"'.toUInt8 :: rest) = (stringRest rest).map fun (s, rest) => (Found.string s, rest) :=
  rfl

theorem front_bracket (rest : List UInt8) :
    front ('['.toUInt8 :: rest) = .ok (Found.sequence, rest) := rfl

theorem front_brace (rest : List UInt8) :
    front ('\x7b'.toUInt8 :: rest) = .ok (Found.map, rest) := rfl

theorem front_minus (rest : List UInt8) :
    front ('-'.toUInt8 :: rest) = (unsignedNumber true rest).map
      fun (n, rest) => (Found.number n, rest) := rfl

/-- A digit differs from every other byte. -/
theorem ne_of_isDigit {b d : UInt8} (hb : isDigit b = true) (hd : isDigit d = false) : b ≠ d := by
  rintro rfl
  rw [hb] at hd
  exact absurd hd.symm Bool.false_ne_true

theorem isBlank_of_isDigit {b : UInt8} (h : isDigit b = true) : isBlank b = false := by
  have hne : ∀ d, isDigit d = false → (b == d) = false := fun d hd =>
    beq_eq_false_iff_ne.mpr (ne_of_isDigit h hd)
  simp only [isBlank, hne 0x20 (by decide), hne 0x0A (by decide), hne 0x0D (by decide),
    hne 0x09 (by decide), Bool.or_self]

theorem front_digit {b : UInt8} (h : isDigit b = true) (rest : List UInt8) :
    front (b :: rest) = (unsignedNumber false (b :: rest)).map
      fun (n, rest) => (Found.number n, rest) := by
  have hne : ∀ d, isDigit d = false → b ≠ d := fun d hd => ne_of_isDigit h hd
  simp only [front, dropBlank_cons (isBlank_of_isDigit h), if_neg (hne 'n'.toUInt8 (by decide)),
    if_neg (hne 't'.toUInt8 (by decide)), if_neg (hne 'f'.toUInt8 (by decide)),
    if_neg (hne '-'.toUInt8 (by decide)), h, if_true]

/-- A written integer of 64 bits reads as the integer. -/
theorem front_intText {n : Int} (hlow : -0x8000000000000000 ≤ n) (hhigh : n < 0x10000000000000000)
    {rest : List UInt8} (hrest : Delimited rest) :
    front (encode (intText n) ++ rest) = .ok (Found.number (.int n), rest) := by
  have hsize : n.natAbs < UInt64.size := by
    show n.natAbs < 0x10000000000000000
    omega
  unfold intText
  split
  · rename_i hneg
    obtain ⟨count, hread⟩ := unsignedNumber_toDigits true hsize hrest
    have habs : -(n.natAbs : Int) = n := by omega
    rw [encode_cons, encodeChar_ascii (by decide), List.cons_append, List.nil_append,
      List.cons_append, front_minus, hread,
      integerNumber_of_neg (by omega) (by omega), habs]
    rfl
  · rename_i hnonneg
    obtain ⟨count, hread⟩ := unsignedNumber_toDigits false hsize hrest
    have habs : (n.natAbs : Int) = n := by omega
    obtain ⟨c, cs, hcs, hc⟩ := head_toDigits n.natAbs
    rw [hcs, encode_cons, encodeChar_digit hc, List.cons_append, List.nil_append,
      List.cons_append] at hread
    rw [hcs, encode_cons, encodeChar_digit hc, List.cons_append, List.nil_append, List.cons_append,
      front_digit (isDigit_toUInt8 hc), hread, integerNumber_of_nonneg, habs]
    rfl

end SearchGateway.Json
