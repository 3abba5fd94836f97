/-
  SearchGateway.Proofs.StringText

  What the text of a string says.  Between its quotes stand characters and escapes; with
  each escape replaced by its character they are the text that is read, and no other value
  is read as a text.
-/
import SearchGateway.Proofs.SettledReaders

namespace SearchGateway.Json

open SearchGateway.Text.Utf8 (decode?_eq_some_iff encode encodeChar ofString)

/-! ## Escapes -/

/-- What the content of a string says, as bytes: an escape is the character that it stands for, and
    two escapes may make up a surrogate pair. -/
inductive Unescapes : List UInt8 → List UInt8 → Prop
  | nil : Unescapes [] []
  | plain {b : UInt8} {body content : List UInt8} (hquote : b ≠ '"'.toUInt8)
      (hslash : b ≠ '\\'.toUInt8) (hcontrol : 0x20 ≤ b) (h : Unescapes body content) :
      Unescapes (b :: body) (b :: content)
  | short {letter byte : UInt8} {body content : List UInt8}
      (hletter : shortEscape? letter = some byte) (h : Unescapes body content) :
      Unescapes ('\\'.toUInt8 :: letter :: body) (byte :: content)
  | unit {h₁ h₂ h₃ h₄ : UInt8} {n : Nat} {body content : List UInt8}
      (hunit : codeUnit? h₁ h₂ h₃ h₄ = some n) (hlow : isLowSurrogate n = false)
      (hhigh : isHighSurrogate n = false) (h : Unescapes body content) :
      Unescapes ('\\'.toUInt8 :: 'u'.toUInt8 :: h₁ :: h₂ :: h₃ :: h₄ :: body)
        (encodeChar (Char.ofNat n) ++ content)
  | pair {h₁ h₂ h₃ h₄ l₁ l₂ l₃ l₄ : UInt8} {n m : Nat} {body content : List UInt8}
      (hunit : codeUnit? h₁ h₂ h₃ h₄ = some n) (hhigh : isHighSurrogate n = true)
      (hother : codeUnit? l₁ l₂ l₃ l₄ = some m) (hlow : isLowSurrogate m = true)
      (h : Unescapes body content) :
      Unescapes ('\\'.toUInt8 :: 'u'.toUInt8 :: h₁ :: h₂ :: h₃ :: h₄ ::
          '\\'.toUInt8 :: 'u'.toUInt8 :: l₁ :: l₂ :: l₃ :: l₄ :: body)
        (encodeChar (surrogatePair n m) ++ content)

theorem Unescapes.isStringBody {body content : List UInt8} (h : Unescapes body content) :
    IsStringBody body := by
  induction h with
  | nil => exact .nil
  | plain hquote hslash hcontrol _ ih => exact .plain hquote hslash hcontrol ih
  | short hletter _ ih => exact .short (Option.isSome_of_eq_some hletter) ih
  | unit hunit _ _ _ ih => exact .unit (Option.isSome_of_eq_some hunit) ih
  | pair hunit _ hother _ _ ih =>
    exact .unit (Option.isSome_of_eq_some hunit) (.unit (Option.isSome_of_eq_some hother) ih)

/-- What is read up to a closing quote is what the bytes in front of it say. -/
theorem exists_unescapes_of_stringBytes {taken bytes content rest : List UInt8}
    (h : stringBytes taken bytes = .ok (content, rest)) : ∃ body said, Unescapes body said ∧
      bytes = body ++ '"'.toUInt8 :: rest ∧ content = taken.reverse ++ said := by
  fun_induction stringBytes taken bytes with
  | case2 =>
    obtain ⟨rfl, rfl⟩ := Prod.mk.inj (Except.ok.inj h)
    exact ⟨[], [], .nil, rfl, (List.append_nil _).symm⟩
  | case10 _ _ _ _ _ _ hunit _ hhigh b letter hpair _ _ _ _ _ _ hother hlow _ ih =>
    obtain ⟨rfl, rfl⟩ := hpair
    obtain ⟨body, said, hbody, rfl, hcontent⟩ := ih h
    refine ⟨_, _, .pair hunit hhigh hother hlow hbody, rfl, ?_⟩
    rw [hcontent, pushChar, List.reverse_append, List.reverse_reverse, List.append_assoc]
  | case14 _ _ _ _ _ _ _ hunit hlow hhigh _ ih =>
    obtain ⟨body, said, hbody, rfl, hcontent⟩ := ih h
    rw [Bool.not_eq_true] at hlow hhigh
    refine ⟨_, _, .unit hunit hlow hhigh hbody, rfl, ?_⟩
    rw [hcontent, pushChar, List.reverse_append, List.reverse_reverse, List.append_assoc]
  | case17 _ letter _ _ _ hletter _ ih =>
    obtain ⟨body, said, hbody, rfl, hcontent⟩ := ih h
    refine ⟨_, _, .short hletter hbody, rfl, ?_⟩
    rw [hcontent, List.reverse_cons, List.append_assoc, List.singleton_append]
  | case19 _ b _ hquote hslash hcontrol ih =>
    obtain ⟨body, said, hbody, rfl, hcontent⟩ := ih h
    refine ⟨_, _, .plain hquote hslash (UInt8.not_lt.mp hcontrol) hbody, rfl, ?_⟩
    rw [hcontent, List.reverse_cons, List.append_assoc, List.singleton_append]
  | _ => cases h

/-- What the content of a string says is read up to the closing quote. -/
theorem Unescapes.stringBytes {body said : List UInt8} (h : Unescapes body said)
    (taken rest : List UInt8) :
    stringBytes taken (body ++ '"'.toUInt8 :: rest) = .ok (taken.reverse ++ said, rest) := by
  induction h generalizing taken with
  | nil =>
    rw [List.nil_append, stringBytes.eq_def, List.append_nil]
    rfl
  | plain hquote hslash hcontrol _ ih =>
    rw [List.cons_append, stringBytes_plain hquote hslash hcontrol, ih]
    simp
  | @short letter byte body said hletter _ ih =>
    have hnone : shortEscape? 'u'.toUInt8 = none := by decide
    have hne : letter ≠ 'u'.toUInt8 := by
      rintro rfl
      rw [hnone] at hletter
      cases hletter
    rw [List.cons_append, List.cons_append, stringBytes_shortEscape hne hletter, ih]
    simp
  | unit hunit hlow hhigh _ ih =>
    simp only [List.cons_append, stringBytes_single hunit hlow hhigh, ih, pushChar]
    simp
  | @pair _ _ _ _ _ _ _ _ n _ _ _ hunit hhigh hother hlow _ ih =>
    have hfirst : isLowSurrogate n = false := by
      simp only [isHighSurrogate, isLowSurrogate, Bool.and_eq_true, decide_eq_true_eq] at hhigh ⊢
      simp only [Bool.and_eq_false_iff, decide_eq_false_iff_not]
      omega
    simp only [List.cons_append, stringBytes_pair hunit hfirst hhigh hother, if_pos hlow, ih,
      pushChar]
    simp

/-- The content of a string is read as a text when it says the bytes of the text. -/
theorem names_iff {body : List UInt8} {s : String} :
    Names body (some s) ↔ Unescapes body (ofString s) := by
  constructor
  · intro h
    have hread := toOption_eq_some_iff.mp (h [])
    unfold stringRest at hread
    split at hread
    · cases hread
    · rename_i content rest hcontent
      split at hread
      · cases hread
      · rename_i cs hdecode
        obtain ⟨hs, rfl⟩ := Prod.mk.inj (Except.ok.inj hread)
        obtain ⟨body', said, hbody, heq, rfl⟩ := exists_unescapes_of_stringBytes hcontent
        obtain rfl := List.append_cancel_right heq
        rw [ofString, ← hs, String.toList_ofList, ← decode?_eq_some_iff.mp hdecode]
        exact hbody
  · intro h rest
    rw [stringRest, h.stringBytes, ofString]
    simp [Text.Utf8.decode?_encode]

/-! ## Values that are read as texts -/

/-- A text holds a string: content between quotes that says the bytes of the string. -/
def HoldsString (text : List UInt8) (s : String) : Prop :=
  ∃ body, text = '"'.toUInt8 :: (body ++ ['"'.toUInt8]) ∧ Unescapes body (ofString s)

/-- A value with a text at its front holds the text. -/
theorem IsValue.holdsString {text : List UInt8} (htext : IsValue text) {s : String}
    (h : front text = .ok (.string s, [])) : HoldsString text s := by
  cases htext with
  | nullWord => cases h
  | trueWord => cases h
  | falseWord => cases h
  | unsigned hunsigned =>
    obtain ⟨b, tail, rfl, hb⟩ := hunsigned.exists_cons
    rw [front_digit hb] at h
    obtain ⟨n, -, hfound⟩ := exists_of_map_pair h
    cases hfound
  | negative =>
    rw [front_minus] at h
    obtain ⟨n, -, hfound⟩ := exists_of_map_pair h
    cases hfound
  | @string body hbody =>
    rw [front_quote] at h
    obtain ⟨s', hread, hfound⟩ := exists_of_map_pair h
    obtain rfl := Found.string.inj hfound
    obtain ⟨outcome, hnames⟩ := exists_names hbody
    have houtcome := (toOption_eq_some_iff.mpr hread).symm.trans (hnames [])
    cases outcome with
    | none => cases houtcome
    | some name =>
      obtain rfl := (Prod.mk.inj (Option.some.inj houtcome)).1
      exact ⟨body, rfl, names_iff.mp hnames⟩
  | array => cases h
  | object => cases h

/-- A string is read from the texts that hold it, and from no other value. -/
theorem settles_string_iff {text : List UInt8} (htext : IsValue text) {s : String} :
    Settles string text (some s) ↔ HoldsString text s := by
  constructor
  · intro h
    have hread := toOption_eq_some_iff.mp (h .none delimited_nil)
    rw [Blanks.none, List.nil_append, List.append_nil] at hread
    unfold string at hread
    split at hread
    · cases hread
    · rename_i hfront
      obtain ⟨rfl, rfl⟩ := Prod.mk.inj (Except.ok.inj hread)
      exact htext.holdsString hfront
    · cases hread
  · rintro ⟨body, rfl, hsaid⟩
    refine settles_scalar string_eq_bind (settles_front_string (names_iff.mpr hsaid)) ?_ ?_
    · intro x hx rest
      obtain rfl : Found.string s = x := Option.some.inj hx
      rfl
    · intro hnone
      cases hnone

end SearchGateway.Json
