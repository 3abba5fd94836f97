/-
  SearchGateway.Proofs.Percent

  What is left of a text that is escaped and unescaped again.  Escaping leaves
  percent signs alone, so a text with an escape of its own does not come back: it
  gets shorter.  Every other text comes back as it was.
-/
import SearchGateway.Proofs.Utf8
import SearchGateway.Text.Percent

namespace SearchGateway.Text.Percent

open SearchGateway.Text.Utf8

/-! ## Escapes -/

/-- A hexadecimal digit. -/
def isHex (c : Char) : Bool :=
  c.isDigit || ('A' ≤ c && c ≤ 'F') || ('a' ≤ c && c ≤ 'f')

/-- A text without a percent sign that has two hexadecimal digits behind it. -/
def EscapeFree (cs : List Char) : Prop :=
  ∀ high low, isHex high = true → isHex low = true → ¬ ['%', high, low] <:+: cs

/-- A text that begins with an escape. -/
def OpensEscape (cs : List Char) : Prop :=
  ∃ high low rest, cs = '%' :: high :: low :: rest ∧ isHex high = true ∧ isHex low = true

theorem escapeFree_nil : EscapeFree [] := by
  intro high low _ _ h
  exact nomatch List.eq_nil_of_infix_nil h

theorem escapeFree_cons_iff {c : Char} {cs : List Char} :
    EscapeFree (c :: cs) ↔ ¬ OpensEscape (c :: cs) ∧ EscapeFree cs := by
  constructor
  · intro h
    constructor
    · rintro ⟨high, low, rest, heq, hhigh, hlow⟩
      exact h high low hhigh hlow (heq ▸ (List.prefix_append ['%', high, low] rest).isInfix)
    · intro high low hhigh hlow hinfix
      exact h high low hhigh hlow (List.infix_cons hinfix)
  · rintro ⟨hfront, hrest⟩ high low hhigh hlow hinfix
    rcases List.infix_cons_iff.mp hinfix with ⟨rest, heq⟩ | hinfix
    · exact hfront ⟨high, low, rest, heq.symm, hhigh, hlow⟩
    · exact hrest high low hhigh hlow hinfix

/-! ## Unescaping bytes -/

theorem decode_cons_of_ne {b : UInt8} (h : b.toNat ≠ 0x25) (rest : List UInt8) :
    decode (b :: rest) = b :: decode rest := by
  match rest with
  | [] => rfl
  | [c] => rfl
  | c :: d :: rest => rw [decode, if_neg h]

theorem decode_escape {high low : UInt8} {m n : Nat} (hhigh : hexValue? high = some m)
    (hlow : hexValue? low = some n) (rest : List UInt8) :
    decode (0x25 :: high :: low :: rest) = (m * 16 + n).toUInt8 :: decode rest := by
  rw [decode, if_pos (by decide), hhigh, hlow]

/-- A percent sign without two hexadecimal digits behind it is kept. -/
theorem decode_percent {rest : List UInt8}
    (h : ∀ high low behind, rest = high :: low :: behind → (hexValue? high).isSome = true →
      (hexValue? low).isSome = true → False) : decode (0x25 :: rest) = 0x25 :: decode rest := by
  match rest with
  | [] => rfl
  | [c] => rfl
  | c :: d :: rest =>
    rw [decode, if_pos (by decide)]
    cases hhigh : hexValue? c with
    | none => rfl
    | some m =>
      cases hlow : hexValue? d with
      | none => rfl
      | some n => exact (h c d rest rfl (by rw [hhigh]; rfl) (by rw [hlow]; rfl)).elim

/-- Escaped bytes are unescaped one by one. -/
theorem decode_flatMap_encodeByte (bytes rest : List UInt8) :
    decode (Utf8.encode (bytes.flatMap encodeByte) ++ rest) = bytes ++ decode rest := by
  have hdigit : ∀ n < 16, (hexDigit n).toNat < 0x80 ∧
      hexValue? (hexDigit n).toUInt8 = some n := by decide
  induction bytes with
  | nil => rfl
  | cons b bytes ih =>
    have hb := b.toNat_lt
    obtain ⟨hhigh, hhighValue⟩ := hdigit (b.toNat / 16) (by omega)
    obtain ⟨hlow, hlowValue⟩ := hdigit (b.toNat % 16) (by omega)
    have hvalue : (b.toNat / 16 * 16 + b.toNat % 16).toUInt8 = b := toUInt8_eq (by omega)
    have hescape : Utf8.encode (encodeByte b) =
        [0x25, (hexDigit (b.toNat / 16)).toUInt8, (hexDigit (b.toNat % 16)).toUInt8] := by
      rw [encodeByte, encode_cons, encode_cons, encode_cons, encodeChar_ascii hhigh,
        encodeChar_ascii hlow]
      rfl
    rw [List.flatMap_cons, encode_append, hescape, List.append_assoc, List.cons_append,
      List.cons_append, List.cons_append, List.nil_append, decode_escape hhighValue hlowValue, ih,
      hvalue, List.cons_append]

/-! ## Escaped texts -/

/-- A class of characters that leaves escapes as they are. -/
structure KeepsEscapes (plain : Char → Bool) : Prop where
  percent : plain '%' = true
  hex : ∀ c, isHex c = true → plain c = true

/-- The bytes of a text that is escaped. -/
def escaped (plain : Char → Bool) (cs : List Char) : List UInt8 :=
  Utf8.encode (Percent.encode plain cs)

section Escaped

variable {plain : Char → Bool}

theorem escaped_cons (c : Char) (cs : List Char) :
    escaped plain (c :: cs) =
      Utf8.encode (if plain c then [c] else (encodeChar c).flatMap encodeByte) ++
        escaped plain cs := by
  rw [escaped, Percent.encode, List.flatMap_cons, encode_append]
  rfl

theorem escaped_plain {c : Char} (hc : plain c = true) (cs : List Char) :
    escaped plain (c :: cs) = encodeChar c ++ escaped plain cs := by
  rw [escaped_cons, if_pos hc, encode_cons, encode_nil, List.append_nil]

theorem toNat_lt_of_isHex {c : Char} (h : isHex c = true) : c.toNat < 0x80 := by
  simp only [isHex, Char.isDigit, Bool.or_eq_true, Bool.and_eq_true, decide_eq_true_eq,
    Char.le_def, UInt32.le_iff_toNat_le] at h
  show c.val.toNat < 0x80
  rcases h with (⟨-, h⟩ | ⟨-, h⟩) | ⟨-, h⟩
  · exact Nat.lt_of_le_of_lt h (by decide)
  · exact Nat.lt_of_le_of_lt h (by decide)
  · exact Nat.lt_of_le_of_lt h (by decide)

/-- The hexadecimal digits are the ASCII characters whose bytes have a value. -/
theorem isSome_hexValue? {c : Char} (hc : c.toNat < 0x80) :
    (hexValue? c.toUInt8).isSome = isHex c :=
  of_ascii hc (by decide)

theorem escaped_hex (h : KeepsEscapes plain) {c : Char} (hc : isHex c = true) (cs : List Char) :
    escaped plain (c :: cs) = c.toUInt8 :: escaped plain cs := by
  rw [escaped_plain (h.hex c hc), encodeChar_ascii (toNat_lt_of_isHex hc), List.singleton_append]

theorem escaped_percent (h : KeepsEscapes plain) (cs : List Char) :
    escaped plain ('%' :: cs) = 0x25 :: escaped plain cs :=
  escaped_plain h.percent cs

/-- The bytes of a character beyond ASCII are no hexadecimal digits. -/
theorem hexValue?_of_mem_encodeChar {c : Char} (hc : 0x80 ≤ c.toNat) {b : UInt8}
    (hb : b ∈ encodeChar c) : hexValue? b = none := by
  have hle := le_of_mem_encodeChar hc hb
  rw [hexValue?, if_neg (by omega), if_neg (by omega), if_neg (by omega)]

/-- A hexadecimal digit at the front of an escaped text stands at the front of the text. -/
theorem hex_of_escaped {cs : List Char} {b : UInt8} {rest : List UInt8}
    (hcs : escaped plain cs = b :: rest) (hb : (hexValue? b).isSome = true) :
    ∃ c cs', cs = c :: cs' ∧ isHex c = true ∧ rest = escaped plain cs' := by
  cases cs with
  | nil => exact nomatch hcs
  | cons c cs =>
    obtain ⟨lead, more, hlead, -⟩ := next_encodeChar c []
    by_cases hc : plain c = true
    · rw [escaped_plain hc] at hcs
      by_cases hascii : c.toNat < 0x80
      · rw [encodeChar_ascii hascii, List.singleton_append] at hcs
        obtain ⟨rfl, rfl⟩ := List.cons.inj hcs
        rw [isSome_hexValue? hascii] at hb
        exact ⟨c, cs, rfl, hb, rfl⟩
      · rw [hlead] at hcs
        obtain rfl : lead = b := (List.cons.inj hcs).1
        have hnone := hexValue?_of_mem_encodeChar (by omega) (hlead ▸ List.mem_cons_self)
        exact nomatch hnone ▸ hb
    · -- any other character begins with the percent sign of its first byte
      rw [escaped_cons, if_neg hc, hlead, List.flatMap_cons] at hcs
      obtain rfl : (0x25 : UInt8) = b := (List.cons.inj hcs).1
      exact nomatch hb

/-- Unescaping leaves the bytes of a character that is no percent sign alone. -/
theorem decode_encodeChar_append {c : Char} (hc : c ≠ '%') (rest : List UInt8) :
    decode (encodeChar c ++ rest) = encodeChar c ++ decode rest := by
  have hne : ∀ b ∈ encodeChar c, b.toNat ≠ 0x25 := by
    intro b hb heq
    by_cases hascii : c.toNat < 0x80
    · rw [encodeChar_ascii hascii, List.mem_singleton] at hb
      rw [hb, toNat_charByte (by omega)] at heq
      exact hc (Char.toNat_inj.mp heq)
    · have hle := le_of_mem_encodeChar (by omega) hb
      omega
  generalize encodeChar c = bytes at hne
  induction bytes with
  | nil => rfl
  | cons b bytes ih =>
    rw [List.forall_mem_cons] at hne
    rw [List.cons_append, decode_cons_of_ne hne.1, ih hne.2, List.cons_append]

/-- Unescaping takes a character off the front of a text that does not begin with an escape. -/
theorem decode_escaped_cons (h : KeepsEscapes plain) {c : Char} {cs : List Char}
    (hc : ¬ OpensEscape (c :: cs)) :
    decode (escaped plain (c :: cs)) = encodeChar c ++ decode (escaped plain cs) := by
  by_cases hplain : plain c = true
  · by_cases hpercent : c = '%'
    · subst hpercent
      rw [escaped_percent h]
      -- two digits behind it in the bytes would be two digits behind it in the text
      refine decode_percent fun high low behind hbehind hhigh hlow => hc ?_
      obtain ⟨d, cs', rfl, hd, hrest⟩ := hex_of_escaped hbehind hhigh
      obtain ⟨e, cs'', rfl, he, -⟩ := hex_of_escaped hrest.symm hlow
      exact ⟨d, e, cs'', rfl, hd, he⟩
    · rw [escaped_plain hplain, decode_encodeChar_append hpercent]
  · rw [escaped_cons, if_neg hplain, decode_flatMap_encodeByte]

/-- Unescaping makes one byte of an escape at the front. -/
theorem decode_escaped_escape (h : KeepsEscapes plain) {high low : Char}
    (hhigh : isHex high = true) (hlow : isHex low = true) (cs : List Char) :
    ∃ b, decode (escaped plain ('%' :: high :: low :: cs)) = b :: decode (escaped plain cs) := by
  obtain ⟨m, hm⟩ := Option.isSome_iff_exists.mp
    ((isSome_hexValue? (toNat_lt_of_isHex hhigh)).trans hhigh)
  obtain ⟨n, hn⟩ := Option.isSome_iff_exists.mp
    ((isSome_hexValue? (toNat_lt_of_isHex hlow)).trans hlow)
  rw [escaped_percent h, escaped_hex h hhigh, escaped_hex h hlow]
  exact ⟨_, decode_escape hm hn _⟩

/-- A text without escapes comes back as it was. -/
theorem decode_escaped (h : KeepsEscapes plain) {cs : List Char} (hcs : EscapeFree cs) :
    decode (escaped plain cs) = Utf8.encode cs := by
  induction cs with
  | nil => rfl
  | cons c cs ih =>
    obtain ⟨hfront, hrest⟩ := escapeFree_cons_iff.mp hcs
    rw [decode_escaped_cons h hfront, ih hrest, encode_cons]

/-! ## Lengths -/

/-- The number of bytes that begin a character. -/
def leads (bytes : List UInt8) : Nat :=
  bytes.countP fun b => !isContinuation b

theorem leads_append (bytes bytes' : List UInt8) :
    leads (bytes ++ bytes') = leads bytes + leads bytes' :=
  List.countP_append

theorem leads_cons (b : UInt8) (bytes : List UInt8) :
    leads (b :: bytes) = leads bytes + if isContinuation b then 0 else 1 := by
  rw [leads, List.countP_cons, leads]
  cases isContinuation b <;> rfl

theorem leads_cons_le (b : UInt8) (bytes : List UInt8) : leads (b :: bytes) ≤ leads bytes + 1 := by
  rw [leads_cons]
  split <;> omega

/-- A byte below the continuation bytes or beyond them is none of them. -/
theorem isContinuation_eq_false {n : Nat} (h : n < 256) (hn : n < 0x80 ∨ 0xC0 ≤ n) :
    isContinuation n.toUInt8 = false := by
  rw [isContinuation, toNat_toUInt8 h, Bool.and_eq_false_iff, decide_eq_false_iff_not,
    decide_eq_false_iff_not]
  omega

/-- A character has one byte that begins it. -/
theorem leads_encodeChar (c : Char) : leads (encodeChar c) = 1 := by
  -- one case for each number of bytes: the first begins the character, the others continue it
  have hbounds := toNat_bounds c
  by_cases h₁ : c.toNat < 0x80
  · have hlead : isContinuation c.toNat.toUInt8 = false :=
      isContinuation_eq_false (by omega) (.inl h₁)
    rw [encodeChar, if_pos h₁, leads_cons, hlead]
    rfl
  have hlast := (continuation_toUInt8 (Nat.mod_lt c.toNat (by decide : 0 < 64))).1
  have hsecond := (continuation_toUInt8 (Nat.mod_lt (c.toNat / 64) (by decide : 0 < 64))).1
  have hthird := (continuation_toUInt8 (Nat.mod_lt (c.toNat / 4096) (by decide : 0 < 64))).1
  by_cases h₂ : c.toNat < 0x800
  · have hlead : isContinuation (0xC0 + c.toNat / 64).toUInt8 = false :=
      isContinuation_eq_false (by omega) (.inr (by omega))
    rw [encodeChar_two (by omega) h₂]
    rw [leads_cons, leads_cons, hlead, hlast]
    rfl
  by_cases h₃ : c.toNat < 0x10000
  · have hlead : isContinuation (0xE0 + c.toNat / 4096).toUInt8 = false :=
      isContinuation_eq_false (by omega) (.inr (by omega))
    rw [encodeChar_three (by omega) h₃]
    rw [leads_cons, leads_cons, leads_cons, hlead, hlast, hsecond]
    rfl
  · have hlead : isContinuation (0xF0 + c.toNat / 262144).toUInt8 = false :=
      isContinuation_eq_false (by omega) (.inr (by omega))
    rw [encodeChar_four (by omega)]
    rw [leads_cons, leads_cons, leads_cons, leads_cons, hlead, hlast, hsecond, hthird]
    rfl

theorem leads_encode (cs : List Char) : leads (Utf8.encode cs) = cs.length := by
  induction cs with
  | nil => rfl
  | cons c cs ih =>
    rw [encode_cons, leads_append, leads_encodeChar, ih, List.length_cons, Nat.add_comm]

/-- A text does not get longer when it is escaped and unescaped, and it gets shorter if it has an
    escape. -/
theorem leads_decode_escaped (h : KeepsEscapes plain) (cs : List Char) :
    leads (decode (escaped plain cs)) ≤ cs.length ∧
      (leads (decode (escaped plain cs)) = cs.length → EscapeFree cs) := by
  -- an escape at the front takes three characters at once
  induction hlength : cs.length using Nat.strongRecOn generalizing cs with
  | ind length ih =>
    cases cs with
    | nil => exact ⟨Nat.zero_le _, fun _ => escapeFree_nil⟩
    | cons c cs =>
      by_cases hfront : OpensEscape (c :: cs)
      · obtain ⟨high, low, rest, heq, hhigh, hlow⟩ := hfront
        obtain ⟨b, hdecoded⟩ := decode_escaped_escape h hhigh hlow rest
        rw [heq] at hlength ⊢
        simp only [List.length_cons] at hlength
        have hrest := (ih rest.length (by omega) rest rfl).1
        have hle := leads_cons_le b (decode (escaped plain rest))
        rw [hdecoded]
        constructor
        · omega
        · intro hsame
          omega
      · rw [List.length_cons] at hlength
        obtain ⟨hle, hfree⟩ := ih cs.length (by omega) cs rfl
        rw [decode_escaped_cons h hfront, leads_append, leads_encodeChar]
        constructor
        · omega
        · intro hsame
          exact escapeFree_cons_iff.mpr ⟨hfront, hfree (by omega)⟩

/-- What comes back of a text is not longer than it, and it is the same text if it is as long. -/
theorem length_le_of_decode? (h : KeepsEscapes plain) {cs ds : List Char}
    (hds : decode? (decode (escaped plain cs)) = some ds) :
    ds.length ≤ cs.length ∧ (ds.length = cs.length → EscapeFree cs ∧ ds = cs) := by
  have hbytes := decode?_eq_some_iff.mp hds
  obtain ⟨hle, hfree⟩ := leads_decode_escaped h cs
  rw [hbytes, leads_encode] at hle hfree
  refine ⟨hle, fun hsame => ⟨hfree hsame, ?_⟩⟩
  rw [decode_escaped h (hfree hsame)] at hbytes
  exact (encode_injective hbytes).symm

/-- A text comes back as it was exactly if it has no escapes. -/
theorem decode?_escaped_iff (h : KeepsEscapes plain) {cs : List Char} :
    decode? (decode (escaped plain cs)) = some cs ↔ EscapeFree cs := by
  constructor
  · intro hcs
    exact ((length_le_of_decode? h hcs).2 rfl).1
  · intro hfree
    rw [decode_escaped h hfree, decode?_encode]

end Escaped

end SearchGateway.Text.Percent
