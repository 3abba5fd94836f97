/-
  SearchGateway.Proofs.Decimals

  The decimal text of an integer: a minus sign below zero and nowhere else, and
  digits that begin with a zero only where it stands alone.  Every integer has one
  such text, and it is the one that is written.
-/
import SearchGateway.Proofs.Lexeme

namespace SearchGateway.Json

/-! ## Numerals -/

/-- Decimal digits that write a natural number without leading zeros. -/
structure IsNumeral (digits : List Char) (n : Nat) : Prop where
  nonempty : digits ≠ []
  decimal : ∀ c ∈ digits, c.isDigit = true
  no_leading_zero : digits.head? = some '0' → digits = ['0']
  value : Nat.ofDigitChars 10 digits 0 = n

theorem isNumeral_toDigits (n : Nat) : IsNumeral (Nat.toDigits 10 n) n where
  nonempty := Nat.toDigits_ne_nil
  decimal := isDigit_toDigits n
  no_leading_zero h := by
    obtain ⟨cs, hcs⟩ := List.head?_eq_some_iff.mp h
    rw [hcs, eq_nil_of_toDigits_eq_zero_cons hcs]
  value := Nat.ofDigitChars_ten_toDigits

/-- Reading digits one by one, each of which is added to ten times the ones before it, gives the
    number that they write. -/
theorem foldl_eq_ofDigitChars (digits : List Char) (n : Nat) :
    digits.foldl (fun n c => n * 10 + (c.toNat - 48)) n = Nat.ofDigitChars 10 digits n := by
  induction digits generalizing n with
  | nil => rw [List.foldl_nil, Nat.ofDigitChars_nil]
  | cons c digits ih =>
    rw [List.foldl_cons, ih, Nat.ofDigitChars_cons, Nat.mul_comm n 10]
    rfl

/-- A digit is the one that is written for its value. -/
theorem digitChar_of_isDigit {c : Char} (h : c.isDigit = true) :
    c.toNat - '0'.toNat < 10 ∧ Nat.digitChar (c.toNat - '0'.toNat) = c := by
  obtain ⟨hlow, hhigh⟩ := Char.isDigit_iff_toNat.mp h
  have hwritten : ∀ d < 10, Nat.digitChar d = Char.ofNat ('0'.toNat + d) := by decide
  have hlast : '9'.toNat = '0'.toNat + 9 := rfl
  have hlt : c.toNat - '0'.toNat < 10 := by omega
  refine ⟨hlt, ?_⟩
  rw [hwritten _ hlt, Nat.add_sub_cancel' hlow, Char.ofNat_toNat]

/-- Digits behind a number that is not zero go on with its numeral. -/
theorem toDigits_append {cs : List Char} (hcs : ∀ c ∈ cs, c.isDigit = true) {n : Nat}
    (hn : 0 < n) : Nat.toDigits 10 n ++ cs = Nat.toDigits 10 (Nat.ofDigitChars 10 cs n) := by
  induction cs generalizing n with
  | nil => rw [List.append_nil, Nat.ofDigitChars_nil]
  | cons c cs ih =>
    obtain ⟨hlt, hwritten⟩ := digitChar_of_isDigit (hcs c List.mem_cons_self)
    have hstep := Nat.toDigits_append_toDigits (by decide) hn hlt
    rw [Nat.toDigits_of_lt_base hlt, hwritten] at hstep
    rw [Nat.ofDigitChars_cons, ← ih (fun d hd => hcs d (List.mem_cons_of_mem c hd)) (by omega),
      ← hstep, List.append_assoc, List.singleton_append]

/-- A number has no other numeral than the one that is written for it. -/
theorem IsNumeral.eq_toDigits {digits : List Char} {n : Nat} (h : IsNumeral digits n) :
    digits = Nat.toDigits 10 n := by
  cases digits with
  | nil => exact absurd rfl h.nonempty
  | cons c cs =>
    obtain ⟨hlt, hwritten⟩ := digitChar_of_isDigit (h.decimal c List.mem_cons_self)
    rw [← h.value, Nat.ofDigitChars_cons, Nat.mul_zero, Nat.zero_add]
    by_cases hzero : c.toNat - '0'.toNat = 0
    · -- a zero in front is all there is
      rw [hzero] at hwritten ⊢
      obtain rfl : cs = [] :=
        (List.cons.inj (h.no_leading_zero (congrArg some hwritten.symm))).2
      rw [← hwritten]
      rfl
    · rw [← toDigits_append (fun d hd => h.decimal d (List.mem_cons_of_mem c hd))
        (Nat.pos_of_ne_zero hzero), Nat.toDigits_of_lt_base hlt, hwritten, List.singleton_append]

/-! ## Integers -/

/-- The decimal text of an integer. -/
def IsDecimal (text : String) (n : Int) : Prop :=
  ∃ digits, IsNumeral digits n.natAbs ∧
    text.toList = if n < 0 then '-' :: digits else digits

/-- The text that is written for an integer is its decimal text, and it has no other one. -/
theorem isDecimal_iff {text : String} {n : Int} :
    IsDecimal text n ↔ text = String.ofList (intText n) := by
  constructor
  · rintro ⟨digits, hdigits, htext⟩
    rw [← String.ofList_toList (s := text), htext, hdigits.eq_toDigits, intText]
  · rintro rfl
    exact ⟨Nat.toDigits 10 n.natAbs, isNumeral_toDigits n.natAbs, String.toList_ofList⟩

end SearchGateway.Json
