/-
  SearchGateway.Proofs.Utf8

  Encoding and decoding UTF-8 are inverse: the first piece of an encoded text is
  its first character, so decoding gives back what was encoded, and a first piece
  that is a character stands there as it is encoded, so nothing else is decoded.
-/
import SearchGateway.Text.Utf8

namespace SearchGateway.Text.Utf8

/-! ## Encoded texts -/

@[simp] theorem encode_nil : encode [] = [] := rfl

@[simp] theorem encode_cons (c : Char) (cs : List Char) :
    encode (c :: cs) = encodeChar c ++ encode cs := rfl

@[simp] theorem encode_append (cs ds : List Char) :
    encode (cs ++ ds) = encode cs ++ encode ds :=
  List.flatMap_append

/-- A small number is the value of its byte. -/
theorem toNat_toUInt8 {n : Nat} (h : n < 256) : n.toUInt8.toNat = n :=
  UInt8.toNat_ofNat_of_lt h

/-- A character below U+0100 has the value of its byte. -/
theorem toNat_charByte {c : Char} (h : c.toNat < 256) : c.toUInt8.toNat = c.toNat :=
  toNat_toUInt8 h

/-- Characters below U+0100 with one byte are the same. -/
theorem eq_of_toUInt8_eq {c d : Char} (hc : c.toNat < 256) (hd : d.toNat < 256)
    (h : c.toUInt8 = d.toUInt8) : c = d := by
  have htoNat := congrArg UInt8.toNat h
  rw [toNat_charByte hc, toNat_charByte hd] at htoNat
  exact Char.toNat_inj.mp htoNat

/-- What holds of the ASCII characters one by one holds of every one of them. -/
@[elab_as_elim]
theorem of_ascii {p : Char → Prop} {c : Char} (hc : c.toNat < 0x80)
    (h : ∀ n < 0x80, p (Char.ofNat n)) : p c := by
  have hchar := h c.toNat hc
  rwa [Char.ofNat_toNat] at hchar

/-- The code points of characters: no surrogate is among them. -/
theorem toNat_bounds (c : Char) :
    c.toNat < 0xD800 ∨ (0xDFFF < c.toNat ∧ c.toNat < 0x110000) := by
  have h := c.valid
  simp only [UInt32.isValidChar, Nat.isValidChar] at h
  exact h

/-- An ASCII character is one byte. -/
theorem encodeChar_ascii {c : Char} (h : c.toNat < 0x80) : encodeChar c = [c.toUInt8] := by
  simp only [encodeChar, if_pos h]
  rfl

/-- A character below U+0800 and beyond ASCII is two bytes. -/
theorem encodeChar_two {c : Char} (h₁ : 0x80 ≤ c.toNat) (h₂ : c.toNat < 0x800) :
    encodeChar c = [(0xC0 + c.toNat / 64).toUInt8, (0x80 + c.toNat % 64).toUInt8] := by
  simp only [encodeChar]
  rw [if_neg (by omega), if_pos h₂]

/-- Any other character of the Basic Multilingual Plane is three bytes. -/
theorem encodeChar_three {c : Char} (h₁ : 0x800 ≤ c.toNat) (h₂ : c.toNat < 0x10000) :
    encodeChar c = [(0xE0 + c.toNat / 4096).toUInt8, (0x80 + c.toNat / 64 % 64).toUInt8,
      (0x80 + c.toNat % 64).toUInt8] := by
  simp only [encodeChar]
  rw [if_neg (by omega), if_neg (by omega), if_pos h₂]

/-- A supplementary character is four bytes. -/
theorem encodeChar_four {c : Char} (h : 0x10000 ≤ c.toNat) :
    encodeChar c = [(0xF0 + c.toNat / 262144).toUInt8, (0x80 + c.toNat / 4096 % 64).toUInt8,
      (0x80 + c.toNat / 64 % 64).toUInt8, (0x80 + c.toNat % 64).toUInt8] := by
  simp only [encodeChar]
  rw [if_neg (by omega), if_neg (by omega), if_neg (by omega)]

/-- Every byte of a character beyond ASCII is beyond ASCII. -/
theorem le_of_mem_encodeChar {c : Char} (hc : 0x80 ≤ c.toNat) {b : UInt8}
    (hb : b ∈ encodeChar c) : 0x80 ≤ b.toNat := by
  have hbounds := toNat_bounds c
  by_cases h₂ : c.toNat < 0x800
  · rw [encodeChar_two hc h₂] at hb
    simp only [List.mem_cons, List.not_mem_nil, or_false] at hb
    rcases hb with rfl | rfl <;> rw [toNat_toUInt8 (by omega)] <;> omega
  by_cases h₃ : c.toNat < 0x10000
  · rw [encodeChar_three (by omega) h₃] at hb
    simp only [List.mem_cons, List.not_mem_nil, or_false] at hb
    rcases hb with rfl | rfl | rfl <;> rw [toNat_toUInt8 (by omega)] <;> omega
  · rw [encodeChar_four (by omega)] at hb
    simp only [List.mem_cons, List.not_mem_nil, or_false] at hb
    rcases hb with rfl | rfl | rfl | rfl <;> rw [toNat_toUInt8 (by omega)] <;> omega

/-! ## The first piece -/

/-- A number below 64 makes a continuation byte and is its payload. -/
theorem continuation_toUInt8 {n : Nat} (h : n < 64) :
    isContinuation (0x80 + n).toUInt8 = true ∧ payload (0x80 + n).toUInt8 = n := by
  have htoNat : (0x80 + n).toUInt8.toNat = 0x80 + n := toNat_toUInt8 (by omega)
  constructor
  · simp only [isContinuation, htoNat, Bool.and_eq_true, decide_eq_true_eq]
    omega
  · unfold payload
    omega

/-- The second byte of a character of three bytes is allowed after its lead byte. -/
theorem isSecond_three {c : Char} (h₁ : 0x800 ≤ c.toNat) (h₂ : c.toNat < 0x10000) :
    isSecond (0xE0 + c.toNat / 4096).toUInt8 (0x80 + c.toNat / 64 % 64).toUInt8 = true := by
  have hbounds := toNat_bounds c
  have hlead : (0xE0 + c.toNat / 4096).toUInt8.toNat = 0xE0 + c.toNat / 4096 :=
    toNat_toUInt8 (by omega)
  have hsecond : (0x80 + c.toNat / 64 % 64).toUInt8.toNat = 0x80 + c.toNat / 64 % 64 :=
    toNat_toUInt8 (by omega)
  simp only [isSecond, isContinuation, hlead, hsecond]
  grind

/-- The second byte of a character of four bytes is allowed after its lead byte. -/
theorem isSecond_four {c : Char} (h : 0x10000 ≤ c.toNat) :
    isSecond (0xF0 + c.toNat / 262144).toUInt8 (0x80 + c.toNat / 4096 % 64).toUInt8 = true := by
  have hbounds := toNat_bounds c
  have hlead : (0xF0 + c.toNat / 262144).toUInt8.toNat = 0xF0 + c.toNat / 262144 :=
    toNat_toUInt8 (by omega)
  have hsecond : (0x80 + c.toNat / 4096 % 64).toUInt8.toNat = 0x80 + c.toNat / 4096 % 64 :=
    toNat_toUInt8 (by omega)
  simp only [isSecond, isContinuation, hlead, hsecond]
  grind

/-- The first piece of an encoded character and anything after it is that character. -/
theorem next_encodeChar (c : Char) (rest : List UInt8) :
    ∃ lead more, encodeChar c = lead :: more ∧ next lead (more ++ rest) = (.char c, rest) := by
  have hbounds := toNat_bounds c
  -- one case for each length: the lead byte chooses the branch, and the payloads are put together
  by_cases h₁ : c.toNat < 0x80
  · refine ⟨_, _, encodeChar_ascii h₁, ?_⟩
    have hlead : c.toUInt8.toNat = c.toNat := toNat_charByte (by omega)
    simp only [next, hlead, if_pos h₁, Char.ofNat_toNat, List.nil_append]
  by_cases h₂ : c.toNat < 0x800
  · refine ⟨_, _, encodeChar_two (by omega) h₂, ?_⟩
    have hlead : (0xC0 + c.toNat / 64).toUInt8.toNat = 0xC0 + c.toNat / 64 :=
      toNat_toUInt8 (by omega)
    obtain ⟨hcont, hpayload⟩ := continuation_toUInt8 (n := c.toNat % 64) (by omega)
    have hvalue : (0xC0 + c.toNat / 64 - 0xC0) * 64 + c.toNat % 64 = c.toNat := by omega
    simp only [next, hlead, List.cons_append, List.nil_append, hcont, hpayload, hvalue,
      if_true, Char.ofNat_toNat]
    rw [if_neg (by omega), if_neg (by omega), if_pos (by omega)]
  by_cases h₃ : c.toNat < 0x10000
  · refine ⟨_, _, encodeChar_three (by omega) h₃, ?_⟩
    have hlead : (0xE0 + c.toNat / 4096).toUInt8.toNat = 0xE0 + c.toNat / 4096 :=
      toNat_toUInt8 (by omega)
    obtain ⟨-, hpayload⟩ := continuation_toUInt8 (n := c.toNat / 64 % 64) (by omega)
    obtain ⟨hcont, hpayload'⟩ := continuation_toUInt8 (n := c.toNat % 64) (by omega)
    have hvalue : (0xE0 + c.toNat / 4096 - 0xE0) * 4096 + c.toNat / 64 % 64 * 64 + c.toNat % 64
        = c.toNat := by omega
    simp only [next, hlead, List.cons_append, List.nil_append,
      isSecond_three (by omega : 0x800 ≤ c.toNat) h₃, hcont, hpayload, hpayload', hvalue,
      if_true, Char.ofNat_toNat]
    rw [if_neg (by omega), if_neg (by omega), if_neg (by omega), if_pos (by omega)]
  · refine ⟨_, _, encodeChar_four (by omega), ?_⟩
    have hlead : (0xF0 + c.toNat / 262144).toUInt8.toNat = 0xF0 + c.toNat / 262144 :=
      toNat_toUInt8 (by omega)
    obtain ⟨-, hpayload⟩ := continuation_toUInt8 (n := c.toNat / 4096 % 64) (by omega)
    obtain ⟨hcont, hpayload'⟩ := continuation_toUInt8 (n := c.toNat / 64 % 64) (by omega)
    obtain ⟨hcont', hpayload''⟩ := continuation_toUInt8 (n := c.toNat % 64) (by omega)
    have hvalue : (0xF0 + c.toNat / 262144 - 0xF0) * 262144 + c.toNat / 4096 % 64 * 4096
        + c.toNat / 64 % 64 * 64 + c.toNat % 64 = c.toNat := by omega
    simp only [next, hlead, List.cons_append, List.nil_append,
      isSecond_four (by omega : 0x10000 ≤ c.toNat), hcont, hcont', hpayload, hpayload',
      hpayload'', hvalue, if_true, Char.ofNat_toNat]
    rw [if_neg (by omega), if_neg (by omega), if_neg (by omega), if_neg (by omega),
      if_pos (by omega)]

/-! ## Decoding -/

/-- The pieces of an encoded text are its characters. -/
theorem pieces_encode (cs : List Char) : pieces (encode cs) = cs.map .char := by
  induction cs with
  | nil => simp
  | cons c cs ih =>
    obtain ⟨lead, more, hchar, hnext⟩ := next_encodeChar c (encode cs)
    rw [encode_cons, hchar, List.cons_append, pieces_cons, hnext, ih, List.map_cons]

/-- Decoding an encoded text gives the text. -/
theorem decode?_encode (cs : List Char) : decode? (encode cs) = some cs := by
  rw [decode?, pieces_encode]
  induction cs with
  | nil => rfl
  | cons c cs ih => rw [List.map_cons, List.mapM_cons, ih]; rfl

/-- Different texts are encoded differently. -/
theorem encode_injective {cs ds : List Char} (h : encode cs = encode ds) : cs = ds := by
  have hdecode : decode? (encode cs) = decode? (encode ds) := by rw [h]
  simpa only [decode?_encode, Option.some.injEq] using hdecode

/-! ## Only encoded texts are decoded -/

/-- The code point of the character of a number that is no surrogate. -/
theorem toNat_ofNat {n : Nat} (h : n < 0xD800 ∨ (0xDFFF < n ∧ n < 0x110000)) :
    (Char.ofNat n).toNat = n := by
  have hvalid : n.isValidChar := h
  rw [Char.ofNat, dif_pos hvalid]
  rfl

theorem toUInt8_eq {b : UInt8} {n : Nat} (h : n = b.toNat) : n.toUInt8 = b := by
  rw [h]
  exact UInt8.ofNat_toNat

theorem bounds_of_isContinuation {b : UInt8} (h : isContinuation b = true) :
    0x80 ≤ b.toNat ∧ b.toNat ≤ 0xBF := by
  simpa only [isContinuation, Bool.and_eq_true, decide_eq_true_eq] using h

/-- What a second byte keeps to after its lead byte. -/
theorem bounds_of_isSecond {lead b : UInt8} (h : isSecond lead b = true) :
    0x80 ≤ b.toNat ∧ b.toNat ≤ 0xBF ∧ (lead.toNat = 0xE0 → 0xA0 ≤ b.toNat) ∧
      (lead.toNat = 0xED → b.toNat ≤ 0x9F) ∧ (lead.toNat = 0xF0 → 0x90 ≤ b.toNat) ∧
      (lead.toNat = 0xF4 → b.toNat ≤ 0x8F) := by
  simp only [isSecond, isContinuation] at h
  repeat' split at h
  all_goals
    rw [Bool.and_eq_true, decide_eq_true_eq, decide_eq_true_eq] at h
    omega

theorem encodeChar_ofNat_one {lead : UInt8} (h : lead.toNat < 0x80) :
    encodeChar (Char.ofNat lead.toNat) = [lead] := by
  have hn : (Char.ofNat lead.toNat).toNat = lead.toNat := toNat_ofNat (by omega)
  have hbyte : lead.toNat.toUInt8 = lead := toUInt8_eq rfl
  simp only [encodeChar, hn, if_pos h, hbyte]

theorem encodeChar_ofNat_two {lead b : UInt8} (h₁ : 0xC2 ≤ lead.toNat) (h₂ : lead.toNat < 0xE0)
    (hb : isContinuation b = true) :
    encodeChar (Char.ofNat ((lead.toNat - 0xC0) * 64 + payload b)) = [lead, b] := by
  have hbounds := bounds_of_isContinuation hb
  unfold payload
  generalize hvalue : (lead.toNat - 0xC0) * 64 + (b.toNat - 0x80) = n
  have hn : (Char.ofNat n).toNat = n := toNat_ofNat (by omega)
  rw [encodeChar_two (by omega) (by omega), hn, toUInt8_eq (by omega : 0xC0 + n / 64 = lead.toNat),
    toUInt8_eq (by omega : 0x80 + n % 64 = b.toNat)]

theorem encodeChar_ofNat_three {lead b c : UInt8} (h₁ : 0xE0 ≤ lead.toNat)
    (h₂ : lead.toNat < 0xF0) (hb : isSecond lead b = true) (hc : isContinuation c = true) :
    encodeChar (Char.ofNat ((lead.toNat - 0xE0) * 4096 + payload b * 64 + payload c)) =
      [lead, b, c] := by
  have hbounds := bounds_of_isSecond hb
  have hbounds' := bounds_of_isContinuation hc
  unfold payload
  generalize hvalue : (lead.toNat - 0xE0) * 4096 + (b.toNat - 0x80) * 64 + (c.toNat - 0x80) = n
  have hn : (Char.ofNat n).toNat = n := toNat_ofNat (by omega)
  rw [encodeChar_three (by omega) (by omega), hn,
    toUInt8_eq (by omega : 0xE0 + n / 4096 = lead.toNat),
    toUInt8_eq (by omega : 0x80 + n / 64 % 64 = b.toNat),
    toUInt8_eq (by omega : 0x80 + n % 64 = c.toNat)]

theorem encodeChar_ofNat_four {lead b c d : UInt8} (h₁ : 0xF0 ≤ lead.toNat)
    (h₂ : lead.toNat < 0xF5) (hb : isSecond lead b = true) (hc : isContinuation c = true)
    (hd : isContinuation d = true) :
    encodeChar (Char.ofNat
        ((lead.toNat - 0xF0) * 262144 + payload b * 4096 + payload c * 64 + payload d)) =
      [lead, b, c, d] := by
  have hbounds := bounds_of_isSecond hb
  have hbounds' := bounds_of_isContinuation hc
  have hbounds'' := bounds_of_isContinuation hd
  unfold payload
  generalize hvalue : (lead.toNat - 0xF0) * 262144 + (b.toNat - 0x80) * 4096 +
    (c.toNat - 0x80) * 64 + (d.toNat - 0x80) = n
  have hn : (Char.ofNat n).toNat = n := toNat_ofNat (by omega)
  rw [encodeChar_four (by omega), hn,
    toUInt8_eq (by omega : 0xF0 + n / 262144 = lead.toNat),
    toUInt8_eq (by omega : 0x80 + n / 4096 % 64 = b.toNat),
    toUInt8_eq (by omega : 0x80 + n / 64 % 64 = c.toNat),
    toUInt8_eq (by omega : 0x80 + n % 64 = d.toNat)]

/-- A first piece that is a character stands there as it is encoded. -/
theorem eq_append_of_next {lead : UInt8} {rest behind : List UInt8} {c : Char}
    (h : next lead rest = (.char c, behind)) : lead :: rest = encodeChar c ++ behind := by
  unfold next at h
  -- one case for each length of a character; all other branches are ill-formed
  split at h
  · rename_i hone
    obtain ⟨hc, rfl⟩ := Prod.mk.inj h
    rw [← Piece.char.inj hc, encodeChar_ofNat_one hone, List.singleton_append]
  rename_i hone
  split at h
  · exact nomatch h
  rename_i hlow
  split at h
  · rename_i htwo
    split at h
    · split at h
      · rename_i hb
        obtain ⟨hc, rfl⟩ := Prod.mk.inj h
        rw [← Piece.char.inj hc, encodeChar_ofNat_two (by omega) htwo hb]
        rfl
      · exact nomatch h
    · exact nomatch h
  rename_i htwo
  split at h
  · rename_i hthree
    split at h
    · split at h
      · rename_i hb
        split at h
        · split at h
          · rename_i hc'
            obtain ⟨hc, rfl⟩ := Prod.mk.inj h
            rw [← Piece.char.inj hc, encodeChar_ofNat_three (by omega) hthree hb hc']
            rfl
          · exact nomatch h
        · exact nomatch h
      · exact nomatch h
    · exact nomatch h
  rename_i hthree
  split at h
  · rename_i hfour
    split at h
    · split at h
      · rename_i hb
        split at h
        · split at h
          · rename_i hc'
            split at h
            · split at h
              · rename_i hd
                obtain ⟨hc, rfl⟩ := Prod.mk.inj h
                rw [← Piece.char.inj hc, encodeChar_ofNat_four (by omega) hfour hb hc' hd]
                rfl
              · exact nomatch h
            · exact nomatch h
          · exact nomatch h
        · exact nomatch h
      · exact nomatch h
    · exact nomatch h
  · exact nomatch h

/-- Only what encodes a text is decoded to it. -/
theorem eq_encode_of_decode? {bytes : List UInt8} {cs : List Char} (h : decode? bytes = some cs) :
    bytes = encode cs := by
  -- the bytes behind the first piece are fewer, and they are decoded to the rest of the text
  induction hlength : bytes.length using Nat.strongRecOn generalizing bytes cs with
  | ind length ih =>
    cases bytes with
    | nil =>
      rw [decode?, pieces_nil] at h
      obtain rfl := Option.some.inj h
      rfl
    | cons lead rest =>
      rw [decode?, pieces_cons, List.mapM_cons] at h
      obtain ⟨c, hpiece, h⟩ := Option.bind_eq_some_iff.mp h
      obtain ⟨cs', hrest, h⟩ := Option.bind_eq_some_iff.mp h
      obtain rfl := Option.some.inj h
      have hnext : next lead rest = (.char c, (next lead rest).2) := by
        cases hfirst : (next lead rest).1 with
        | char d =>
          rw [hfirst] at hpiece
          rw [← Option.some.inj hpiece, ← hfirst]
        | illFormed =>
          rw [hfirst] at hpiece
          exact nomatch hpiece
      have hshorter := length_next_le lead rest
      rw [List.length_cons] at hlength
      have hbehind : (next lead rest).2 = encode cs' := ih _ (by omega) hrest rfl
      rw [encode_cons, ← hbehind]
      exact eq_append_of_next hnext

/-- Bytes are decoded to a text exactly if they encode it. -/
theorem decode?_eq_some_iff {bytes : List UInt8} {cs : List Char} :
    decode? bytes = some cs ↔ bytes = encode cs := by
  constructor
  · exact eq_encode_of_decode?
  · rintro rfl
    exact decode?_encode cs

end SearchGateway.Text.Utf8
