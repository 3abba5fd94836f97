/-
  SearchGateway.Proofs.AcceptedText

  Only what the grammar allows is read.  Whatever a typed reader or a pass takes off the
  front of some bytes is a JSON value, so a text that is accepted can be taken apart into
  its members and items, however it is laid out.
-/
import SearchGateway.Json.Typed
import SearchGateway.Proofs.RecordText
import SearchGateway.Proofs.StringText

namespace SearchGateway.Json

variable {α σ : Type}

/-! ## Blanks and words -/

/-- What is left after dropping blanks stood behind blanks. -/
theorem exists_blanks {bytes rest : List UInt8} (h : dropBlank bytes = rest) :
    ∃ gap : Blanks, bytes = gap.val ++ rest :=
  ⟨⟨bytes.takeWhile isBlank, List.all_eq_true.mp List.all_takeWhile⟩,
    h ▸ List.takeWhile_append_dropWhile.symm⟩

theorem eq_append_of_literal {word bytes rest : List UInt8} (h : literal word bytes = .ok rest) :
    bytes = word ++ rest := by
  induction word generalizing bytes with
  | nil => exact Except.ok.inj h
  | cons e word ih =>
    cases bytes with
    | nil => cases h
    | cons b bytes =>
      rw [literal] at h
      split at h
      · rename_i heq
        rw [heq, ih h, List.cons_append]
      · cases h

theorem exists_colon {bytes rest : List UInt8} (h : colon bytes = .ok rest) :
    ∃ gap : Blanks, bytes = gap.val ++ ':'.toUInt8 :: rest := by
  unfold colon at h
  split at h
  · cases h
  · rename_i b behind hdrop
    split at h
    · rename_i hcolon
      obtain rfl := Except.ok.inj h
      exact hcolon ▸ exists_blanks hdrop
    · cases h

/-! ## Strings -/

/-- Some bytes go on with the content of a string and its closing quote, up to the rest. -/
def EndsString (bytes rest : List UInt8) : Prop :=
  ∃ body, IsStringBody body ∧ bytes = body ++ '"'.toUInt8 :: rest

namespace EndsString

variable {bytes rest : List UInt8}

theorem quote (rest : List UInt8) : EndsString ('"'.toUInt8 :: rest) rest :=
  ⟨[], .nil, rfl⟩

theorem plain (h : EndsString bytes rest) {b : UInt8} (hquote : b ≠ '"'.toUInt8)
    (hslash : b ≠ '\\'.toUInt8) (hcontrol : ¬ b < 0x20) : EndsString (b :: bytes) rest := by
  obtain ⟨body, hbody, rfl⟩ := h
  exact ⟨b :: body, .plain hquote hslash (UInt8.not_lt.mp hcontrol) hbody, rfl⟩

theorem short (h : EndsString bytes rest) {letter : UInt8}
    (hletter : (shortEscape? letter).isSome) :
    EndsString ('\\'.toUInt8 :: letter :: bytes) rest := by
  obtain ⟨body, hbody, rfl⟩ := h
  exact ⟨_, .short hletter hbody, rfl⟩

theorem unit (h : EndsString bytes rest) {h₁ h₂ h₃ h₄ : UInt8}
    (hunit : (codeUnit? h₁ h₂ h₃ h₄).isSome) :
    EndsString ('\\'.toUInt8 :: 'u'.toUInt8 :: h₁ :: h₂ :: h₃ :: h₄ :: bytes) rest := by
  obtain ⟨body, hbody, rfl⟩ := h
  exact ⟨_, .unit hunit hbody, rfl⟩

end EndsString

theorem endsString_of_skipString {bytes rest : List UInt8} (h : skipString bytes = .ok rest) :
    EndsString bytes rest := by
  fun_induction skipString bytes with
  | case2 => exact Except.ok.inj h ▸ .quote _
  | case4 h₁ h₂ h₃ h₄ behind hunit _ ih => exact (ih h).unit hunit
  | case7 letter behind _ hletter _ ih => exact (ih h).short hletter
  | case10 b behind hquote hslash hcontrol ih => exact (ih h).plain hquote hslash hcontrol
  | _ => cases h

theorem endsString_of_stringRest {bytes rest : List UInt8} {s : String}
    (h : stringRest bytes = .ok (s, rest)) : EndsString bytes rest := by
  unfold stringRest at h
  split at h
  · cases h
  · rename_i content behind hread
    split at h
    · cases h
    · obtain ⟨-, rfl⟩ := Prod.mk.inj (Except.ok.inj h)
      obtain ⟨body, said, hbody, hbytes, -⟩ := exists_unescapes_of_stringBytes hread
      exact ⟨body, hbody.isStringBody, hbytes⟩

/-! ## Runs of digits -/

theorem pastDigits_dropWhile (bytes : List UInt8) : PastDigits (bytes.dropWhile isDigit) := by
  intro b hb
  have hnot := List.head?_dropWhile_not isDigit bytes
  rw [Option.mem_def.mp hb] at hnot
  exact hnot

theorem digits_snd (significand taken : Nat) (bytes : List UInt8) :
    (digits significand taken bytes).2 = bytes.dropWhile isDigit := by
  have hrun : ∀ b ∈ bytes.takeWhile isDigit, isDigit b = true :=
    List.all_eq_true.mp List.all_takeWhile
  have hread := digits_run hrun (pastDigits_dropWhile bytes) significand taken
  rw [List.takeWhile_append_dropWhile] at hread
  rw [hread]

/-- A digit begins a run of digits. -/
theorem isDigits_takeWhile {b : UInt8} (hb : isDigit b = true) (bytes : List UInt8) :
    IsDigits ((b :: bytes).takeWhile isDigit) where
  ne := by rw [List.takeWhile_cons_of_pos hb]; exact List.cons_ne_nil _ _
  all := List.all_eq_true.mp List.all_takeWhile

theorem run_append_dropWhile {b : UInt8} (hb : isDigit b = true) (bytes : List UInt8) :
    b :: bytes = (b :: bytes).takeWhile isDigit ++ bytes.dropWhile isDigit := by
  have hsplit := List.takeWhile_append_dropWhile (p := isDigit) (l := b :: bytes)
  rw [List.dropWhile_cons_of_pos hb] at hsplit
  exact hsplit.symm

/-- Digits are those in front of a point, unless a zero is followed by another digit. -/
theorem isWhole_takeWhile {b : UInt8} (hb : isDigit b = true) {bytes : List UInt8}
    (hzero : ¬ (b = '0'.toUInt8 ∧ bytes.head?.any isDigit = true)) :
    IsWhole ((b :: bytes).takeWhile isDigit) := by
  refine ⟨isDigits_takeWhile hb bytes, fun hhead => ?_⟩
  rw [List.takeWhile_cons_of_pos hb] at hhead ⊢
  obtain rfl : b = '0'.toUInt8 := Option.some.inj hhead
  cases bytes with
  | nil => rfl
  | cons c bytes =>
    have hc : ¬ isDigit c = true := fun hc => hzero ⟨rfl, hc⟩
    rw [List.takeWhile_cons_of_neg hc]

/-! ## Numbers -/

theorem exists_digits_of_skipDigits {bytes rest : List UInt8} (h : skipDigits bytes = .ok rest) :
    ∃ run, IsDigits run ∧ bytes = run ++ rest := by
  cases bytes with
  | nil => cases h
  | cons b bytes =>
    rw [skipDigits] at h
    split at h
    · rename_i hb
      obtain rfl := Except.ok.inj h
      exact ⟨_, isDigits_takeWhile hb bytes, run_append_dropWhile hb bytes⟩
    · cases h

theorem exists_exponent_of_skipExponent {bytes rest : List UInt8}
    (h : skipExponent bytes = .ok rest) : ∃ exponent, IsExponent exponent ∧ bytes = exponent ++ rest := by
  unfold skipExponent at h
  split at h
  · exact ⟨[], .absent, Except.ok.inj h⟩
  · rename_i mark behind
    split at h
    · rename_i hmark
      split at h
      · cases h
      · rename_i sign digits
        split at h
        · rename_i hsign
          obtain ⟨run, hrun, rfl⟩ := exists_digits_of_skipDigits h
          rcases hsign with rfl | rfl
          · exact ⟨_, .present hmark .plus hrun, rfl⟩
          · exact ⟨_, .present hmark .minus hrun, rfl⟩
        · obtain ⟨run, hrun, hbytes⟩ := exists_digits_of_skipDigits h
          exact ⟨_, .present hmark .absent hrun, by rw [hbytes]; rfl⟩
    · exact ⟨[], .absent, Except.ok.inj h⟩

theorem exists_fraction_of_skipFraction {bytes rest : List UInt8}
    (h : skipFraction bytes = .ok rest) : ∃ fraction exponent, IsFraction fraction ∧
      IsExponent exponent ∧ bytes = fraction ++ (exponent ++ rest) := by
  unfold skipFraction at h
  split at h
  · exact ⟨[], [], .absent, .absent, Except.ok.inj h⟩
  · rename_i b behind
    split at h
    · rename_i hpoint
      split at h
      · cases h
      · rename_i after hdigits
        obtain ⟨run, hrun, rfl⟩ := exists_digits_of_skipDigits hdigits
        obtain ⟨exponent, hexponent, rfl⟩ := exists_exponent_of_skipExponent h
        exact ⟨_, exponent, .present hrun, hexponent, by rw [hpoint, List.cons_append]⟩
    · obtain ⟨exponent, hexponent, hbytes⟩ := exists_exponent_of_skipExponent h
      exact ⟨[], exponent, .absent, hexponent, hbytes⟩

/-- What is passed over as a number behind its sign is one. -/
theorem exists_unsigned_of_skipNumber {bytes rest : List UInt8} (h : skipNumber bytes = .ok rest) :
    ∃ text, IsUnsigned text ∧ bytes = text ++ rest := by
  cases bytes with
  | nil => cases h
  | cons b bytes =>
    rw [skipNumber] at h
    split at h
    · rename_i hzero
      split at h
      · cases h
      · obtain ⟨fraction, exponent, hfraction, hexponent, rfl⟩ := exists_fraction_of_skipFraction h
        have hwhole : IsWhole ['0'.toUInt8] :=
          ⟨⟨List.cons_ne_nil _ _, List.forall_mem_singleton.mpr (by decide)⟩, fun _ => rfl⟩
        exact ⟨_, .mk hwhole hfraction hexponent, by rw [hzero]; simp⟩
    · rename_i hzero
      split at h
      · rename_i hb
        obtain ⟨fraction, exponent, hfraction, hexponent, hbytes⟩ :=
          exists_fraction_of_skipFraction h
        have hwhole : IsWhole ((b :: bytes).takeWhile isDigit) :=
          isWhole_takeWhile hb fun hboth => hzero hboth.1
        refine ⟨_, .mk hwhole hfraction hexponent, ?_⟩
        rw [List.append_assoc, List.append_assoc, ← hbytes]
        exact run_append_dropWhile hb bytes
      · cases h

/-- The sign in front of an exponent is taken off. -/
theorem exists_sign (bytes : List UInt8) : ∃ sign, IsSign sign ∧ bytes = sign ++ (match bytes with
    | b :: rest =>
      if b = '+'.toUInt8 then (false, rest)
      else if b = '-'.toUInt8 then (true, rest)
      else (false, bytes)
    | [] => (false, [])).2 := by
  cases bytes with
  | nil => exact ⟨[], .absent, rfl⟩
  | cons b bytes =>
    by_cases hplus : b = '+'.toUInt8
    · exact ⟨_, .plus, by simp [hplus]⟩
    · by_cases hminus : b = '-'.toUInt8
      · have hne : '-'.toUInt8 ≠ '+'.toUInt8 := by decide
        exact ⟨_, .minus, by simp [hminus, hne]⟩
      · exact ⟨[], .absent, by simp [hplus, hminus]⟩

theorem exists_digits_of_exponentPart {negative : Bool} {significand : Nat} {exponent : Int}
    {bytes rest : List UInt8} {x : Double}
    (h : exponentPart negative significand exponent bytes = .ok (x, rest)) :
    ∃ sign run, IsSign sign ∧ IsDigits run ∧ bytes = sign ++ (run ++ rest) := by
  obtain ⟨sign, hsign, hbytes⟩ := exists_sign bytes
  unfold exponentPart at h
  dsimp only at h
  split at h
  · cases h
  · rename_i b behind hsigned
    have hdigits : bytes = sign ++ b :: behind := hbytes.trans (congrArg (sign ++ ·) hsigned)
    split at h
    · rename_i hb
      have hrest : behind.dropWhile isDigit = rest := by
        split at h
        · split at h
          · cases h
          · exact (Prod.mk.inj (Except.ok.inj h)).2
        · split_ifs at h
          · cases h
          · exact (Prod.mk.inj (Except.ok.inj h)).2
      refine ⟨sign, _, hsign, isDigits_takeWhile hb behind, ?_⟩
      rw [hdigits, ← hrest, ← run_append_dropWhile hb behind]
    · cases h

theorem exists_exponent_of_optionalExponent {negative : Bool} {significand : Nat} {exponent : Int}
    {bytes rest : List UInt8} {x : Double}
    (h : optionalExponent negative significand exponent bytes = .ok (x, rest)) :
    ∃ text, IsExponent text ∧ bytes = text ++ rest := by
  unfold optionalExponent at h
  split at h
  · rename_i mark behind
    split at h
    · rename_i hmark
      obtain ⟨sign, run, hsign, hrun, rfl⟩ := exists_digits_of_exponentPart h
      exact ⟨_, .present hmark hsign hrun, by simp⟩
    · exact ⟨[], .absent, eq_of_map_pair h⟩
  · exact ⟨[], .absent, eq_of_map_pair h⟩

theorem exists_fraction_of_fractionPart {negative : Bool} {significand : Nat} {exponent : Int}
    {bytes rest : List UInt8} {x : Double}
    (h : fractionPart negative significand exponent bytes = .ok (x, rest)) :
    ∃ run text, IsDigits run ∧ IsExponent text ∧ bytes = run ++ (text ++ rest) := by
  unfold fractionPart at h
  split at h
  · cases h
  · rename_i b behind
    split at h
    · rename_i hb
      dsimp only at h
      rw [digits_snd, List.dropWhile_cons_of_pos hb] at h
      obtain ⟨text, htext, hbehind⟩ := exists_exponent_of_optionalExponent h
      refine ⟨_, text, isDigits_takeWhile hb behind, htext, ?_⟩
      rw [← hbehind]
      exact run_append_dropWhile hb behind
    · cases h

/-- What is read as a number behind its sign is one. -/
theorem exists_unsigned_of_unsignedNumber {negative : Bool} {bytes rest : List UInt8} {n : Number}
    (h : unsignedNumber negative bytes = .ok (n, rest)) :
    ∃ text, IsUnsigned text ∧ bytes = text ++ rest := by
  unfold unsignedNumber at h
  split at h
  · cases h
  · rename_i b behind
    split at h
    · rename_i hb
      split at h
      · cases h
      · rename_i hzero
        have hwhole := isWhole_takeWhile hb hzero
        have hsplit := run_append_dropWhile hb behind
        dsimp only at h
        rw [digits_snd, List.dropWhile_cons_of_pos hb] at h
        -- behind the digits there is a fraction, an exponent or neither
        suffices hpart : ∃ fraction exponent, IsFraction fraction ∧ IsExponent exponent ∧
            behind.dropWhile isDigit = fraction ++ (exponent ++ rest) by
          obtain ⟨fraction, exponent, hfraction, hexponent, hbehind⟩ := hpart
          refine ⟨_, .mk hwhole hfraction hexponent, ?_⟩
          rw [List.append_assoc, List.append_assoc, ← hbehind]
          exact hsplit
        split at h
        · rename_i mark after hafter
          rw [hafter]
          split at h
          · rename_i hpoint
            obtain ⟨x, hread, -⟩ := exists_of_map_pair h
            obtain ⟨run, exponent, hrun, hexponent, rfl⟩ := exists_fraction_of_fractionPart hread
            exact ⟨_, exponent, .present hrun, hexponent, by rw [hpoint, List.cons_append]⟩
          · split at h
            · rename_i hmark
              obtain ⟨x, hread, -⟩ := exists_of_map_pair h
              obtain ⟨sign, run, hsign, hrun, rfl⟩ := exists_digits_of_exponentPart hread
              exact ⟨[], _, .absent, .present hmark hsign hrun, by simp⟩
            · exact ⟨[], [], .absent, .absent, hafter ▸ eq_of_map_pair h⟩
        · exact ⟨[], [], .absent, .absent, eq_of_map_pair h⟩
    · cases h

/-! ## Values that are passed over -/

/-- What is left of a value that is being passed over: for every open bracket, from the inside out,
    other parts and the bracket that closes it. -/
def Completes : List Bracket → List UInt8 → List UInt8 → Prop
  | [], bytes, rest => bytes = rest
  | .array :: outer, bytes, rest =>
    ∃ (gap : Blanks) (items : List Spaced) (behind : List UInt8),
      (∀ item ∈ items, IsValue item.text) ∧ bytes = gap.val ++ itemsBehind items behind ∧
        Completes outer behind rest
  | .object :: outer, bytes, rest =>
    ∃ (gap : Blanks) (ms : List Member) (behind : List UInt8),
      (∀ m ∈ ms, m.WellFormed) ∧ bytes = gap.val ++ membersBehind ms behind ∧
        Completes outer behind rest

/-- What the bytes at a place go on with, up to the rest. -/
def Continues : Expecting → List Bracket → List UInt8 → List UInt8 → Prop
  | .value, outer, bytes, rest =>
    ∃ (gap : Blanks) (text behind : List UInt8),
      IsValue text ∧ bytes = gap.val ++ (text ++ behind) ∧ Completes outer behind rest
  | .firstItem, .array :: outer, bytes, rest =>
    ∃ (gap : Blanks) (items : List Spaced) (behind : List UInt8),
      (∀ item ∈ items, IsValue item.text) ∧ bytes = arrayInside gap items behind ∧
        Completes outer behind rest
  | .firstKey, .object :: outer, bytes, rest =>
    ∃ (gap : Blanks) (ms : List Member) (behind : List UInt8),
      (∀ m ∈ ms, m.WellFormed) ∧ bytes = objectInside gap ms behind ∧ Completes outer behind rest
  | .key, .object :: outer, bytes, rest =>
    ∃ (m : Member) (ms : List Member) (behind : List UInt8),
      (∀ m' ∈ m :: ms, m'.WellFormed) ∧ bytes = m.bytes ++ membersBehind ms behind ∧
        Completes outer behind rest
  | .next, outer, bytes, rest => Completes outer bytes rest
  -- no other brackets are open at these places
  | _, _, _, _ => True

theorem exists_key_of_skipKey {bytes rest : List UInt8} (h : skipKey bytes = .ok rest) :
    ∃ key : Spaced, IsStringBody key.text ∧ bytes = key.before.val ++
      '"'.toUInt8 :: (key.text ++ '"'.toUInt8 :: (key.behind.val ++ ':'.toUInt8 :: rest)) := by
  unfold skipKey at h
  split at h
  · cases h
  · rename_i b behind hdrop
    obtain ⟨before, rfl⟩ := exists_blanks hdrop
    split at h
    · rename_i hquote
      split at h
      · cases h
      · rename_i after hstring
        obtain ⟨body, hbody, rfl⟩ := endsString_of_skipString hstring
        obtain ⟨gap, rfl⟩ := exists_colon h
        exact ⟨⟨before, body, gap⟩, hbody, by rw [hquote]⟩
    · cases h

/-- A word that is passed over behind its first letter is a value. -/
theorem exists_value_of_literal {b : UInt8} {letters bytes rest : List UInt8} {word : String}
    (hword : b :: letters = wordText word) (hvalue : IsValue (wordText word))
    (h : literal letters bytes = .ok rest) : ∃ text, IsValue text ∧ b :: bytes = text ++ rest :=
  ⟨wordText word, hvalue, by rw [eq_append_of_literal h, ← hword, List.cons_append]⟩

theorem EndsString.exists_value {bytes rest : List UInt8} (h : EndsString bytes rest) :
    ∃ text, IsValue text ∧ '"'.toUInt8 :: bytes = text ++ rest := by
  obtain ⟨body, hbody, rfl⟩ := h
  exact ⟨_, .string hbody, by simp⟩

namespace Continues

variable {outer inner : List Bracket} {bytes behind rest : List UInt8}

/-- A value goes on with what its front goes on with. -/
theorem of_skipFront {expecting : Expecting}
    (h : skipFront outer bytes = .ok (expecting, inner, behind))
    (hrest : Continues expecting inner behind rest) : Continues .value outer bytes rest := by
  unfold skipFront at h
  split at h
  · cases h
  · rename_i b after hdrop
    obtain ⟨gap, rfl⟩ := exists_blanks hdrop
    split at h
    · -- an array goes on behind its bracket
      rename_i harray
      obtain ⟨rfl, rfl, rfl⟩ : expecting = .firstItem ∧ inner = .array :: outer ∧ behind = after := by
        simpa [eq_comm] using h
      obtain ⟨gap', items, behind, hitems, rfl, hbehind⟩ := hrest
      exact ⟨gap, _, behind, .array gap' hitems, by rw [arrayText_append, harray], hbehind⟩
    · split at h
      · rename_i hobject
        obtain ⟨rfl, rfl, rfl⟩ :
            expecting = .firstKey ∧ inner = .object :: outer ∧ behind = after := by
          simpa [eq_comm] using h
        obtain ⟨gap', ms, behind, hms, rfl, hbehind⟩ := hrest
        exact ⟨gap, _, behind, .of_members gap' hms, by rw [objectText_append, hobject], hbehind⟩
      · dsimp only at h
        split at h
        · cases h
        · rename_i after' hskipped
          obtain ⟨rfl, rfl, rfl⟩ : expecting = .next ∧ inner = outer ∧ behind = after' := by
            simpa [eq_comm] using h
          suffices hscalar : ∃ text, IsValue text ∧ b :: after = text ++ behind by
            obtain ⟨text, htext, hbytes⟩ := hscalar
            exact ⟨gap, text, behind, htext, by rw [hbytes], hrest⟩
          split_ifs at hskipped with hnull htrue hfalse hminus hdigit hquote
          · exact hnull ▸ exists_value_of_literal rfl .nullWord hskipped
          · exact htrue ▸ exists_value_of_literal rfl .trueWord hskipped
          · exact hfalse ▸ exists_value_of_literal rfl .falseWord hskipped
          · obtain ⟨text, htext, rfl⟩ := exists_unsigned_of_skipNumber hskipped
            exact ⟨_, .negative htext, by rw [hminus, List.cons_append]⟩
          · obtain ⟨text, htext, hbytes⟩ := exists_unsigned_of_skipNumber hskipped
            exact ⟨text, .unsigned htext, hbytes⟩
          · exact hquote ▸ (endsString_of_skipString hskipped).exists_value
          · cases hskipped

/-- Blanks may stand in front of a value. -/
theorem behind_gap (h : Continues .value outer bytes rest) (gap : Blanks) :
    Continues .value outer (gap.val ++ bytes) rest := by
  obtain ⟨gap', text, behind, htext, rfl, hbehind⟩ := h
  exact ⟨gap.append gap', text, behind, htext, by simp [Blanks.append], hbehind⟩

/-- The first item of an array is a value. -/
theorem firstItem (h : Continues .value outer bytes rest) :
    Continues .firstItem outer bytes rest := by
  obtain ⟨gap, text, behind, htext, rfl, hbehind⟩ := h
  cases outer with
  | nil => trivial
  | cons bracket outer =>
    cases bracket with
    | object => trivial
    | array =>
      obtain ⟨gap', items, behind, hitems, rfl, hbehind⟩ := hbehind
      refine ⟨gap, ⟨.none, text, gap'⟩ :: items, behind, List.forall_mem_cons.mpr ⟨htext, hitems⟩,
        ?_, hbehind⟩
      simp [arrayInside_cons, Spaced.bytes, Blanks.none]

/-- A key goes on with a value behind its colon. -/
theorem key (h : Continues .value outer behind rest) (hkey : skipKey bytes = .ok behind) :
    Continues .key outer bytes rest := by
  obtain ⟨key, hbody, rfl⟩ := exists_key_of_skipKey hkey
  obtain ⟨gap, text, after, htext, rfl, hafter⟩ := h
  cases outer with
  | nil => trivial
  | cons bracket outer =>
    cases bracket with
    | array => trivial
    | object =>
      obtain ⟨gap', ms, after, hms, rfl, hafter⟩ := hafter
      refine ⟨⟨key, ⟨gap, text, gap'⟩⟩, ms, after, List.forall_mem_cons.mpr ⟨⟨hbody, htext⟩, hms⟩,
        ?_, hafter⟩
      simp [Member.bytes, Member.opened, Spaced.bytes]

/-- The first key of an object is a key. -/
theorem firstKey (h : Continues .key outer bytes rest) (gap : Blanks) :
    Continues .firstKey outer (gap.val ++ bytes) rest := by
  cases outer with
  | nil => trivial
  | cons bracket outer =>
    cases bracket with
    | array => trivial
    | object =>
      obtain ⟨m, ms, behind, hms, rfl, hbehind⟩ := h
      exact ⟨gap, m :: ms, behind, hms, by rw [objectInside_cons], hbehind⟩

/-- Behind a comma an array goes on with a value. -/
theorem nextItem (h : Continues .value (.array :: outer) bytes rest) (gap : Blanks) :
    Continues .next (.array :: outer) (gap.val ++ ','.toUInt8 :: bytes) rest := by
  obtain ⟨before, text, behind, htext, rfl, gap', items, behind', hitems, rfl, hbehind⟩ := h
  refine ⟨gap, ⟨before, text, gap'⟩ :: items, behind', List.forall_mem_cons.mpr ⟨htext, hitems⟩, ?_,
    hbehind⟩
  simp [itemsBehind_cons, Spaced.bytes]

/-- Behind a comma an object goes on with a key. -/
theorem nextKey (h : Continues .key (.object :: outer) bytes rest) (gap : Blanks) :
    Continues .next (.object :: outer) (gap.val ++ ','.toUInt8 :: bytes) rest := by
  obtain ⟨m, ms, behind, hms, rfl, hbehind⟩ := h
  exact ⟨gap, m :: ms, behind, hms, by rw [membersBehind_cons], hbehind⟩

/-- What a pass takes is what the place goes on with. -/
theorem of_skipWithin {clock : List UInt8} {expecting : Expecting}
    (h : skipWithin clock expecting outer bytes = .ok rest) :
    Continues expecting outer bytes rest := by
  -- the induction follows the pass, one case for each of its steps
  fun_induction skipWithin clock expecting outer bytes with
  | case3 _ _ _ _ _ _ _ hfront ih => exact .of_skipFront hfront (ih h)
  | case5 _ _ outer _ _ hdrop ih =>
    obtain ⟨gap, rfl⟩ := exists_blanks hdrop
    rcases outer with - | ⟨- | -, outer⟩
    · trivial
    · exact ⟨gap, [], _, fun _ hm => absurd hm List.not_mem_nil, (arrayInside_nil gap _).symm, ih h⟩
    · trivial
  | case7 _ _ _ _ _ _ hdrop _ _ _ _ hfront ih =>
    obtain ⟨gap, rfl⟩ := exists_blanks hdrop
    exact ((of_skipFront hfront (ih h)).behind_gap gap).firstItem
  | case9 _ _ outer _ _ hdrop ih =>
    obtain ⟨gap, rfl⟩ := exists_blanks hdrop
    rcases outer with - | ⟨- | -, outer⟩
    · trivial
    · trivial
    · exact ⟨gap, [], _, fun _ hm => absurd hm List.not_mem_nil, (objectInside_nil gap _).symm, ih h⟩
  | case11 _ _ _ _ _ _ hdrop _ _ hkey ih =>
    obtain ⟨gap, rfl⟩ := exists_blanks hdrop
    exact ((ih h).key hkey).firstKey gap
  | case13 _ _ _ _ _ hkey ih => exact (ih h).key hkey
  | case14 => exact Except.ok.inj h
  | case16 _ _ _ _ _ hdrop ih =>
    obtain ⟨gap, rfl⟩ := exists_blanks hdrop
    exact (ih h).nextItem gap
  | case17 _ _ _ _ _ hdrop _ ih =>
    obtain ⟨gap, rfl⟩ := exists_blanks hdrop
    exact ⟨gap, [], _, fun _ hm => absurd hm List.not_mem_nil, rfl, ih h⟩
  | case20 _ _ _ _ _ hdrop ih =>
    obtain ⟨gap, rfl⟩ := exists_blanks hdrop
    exact (ih h).nextKey gap
  | case21 _ _ _ _ _ hdrop _ ih =>
    obtain ⟨gap, rfl⟩ := exists_blanks hdrop
    exact ⟨gap, [], _, fun _ hm => absurd hm List.not_mem_nil, rfl, ih h⟩
  | _ => cases h

end Continues

/-- What is passed over is a value. -/
theorem exists_value_of_skip {bytes rest : List UInt8} (h : skip bytes = .ok rest) :
    ∃ (gap : Blanks) (text : List UInt8), IsValue text ∧ bytes = gap.val ++ (text ++ rest) := by
  obtain ⟨gap, text, behind, htext, rfl, hbehind⟩ := Continues.of_skipWithin h
  exact ⟨gap, text, htext, by rw [hbehind]⟩

/-! ## Values that are read -/

/-- A reader that takes nothing but values, with blanks in front of them. -/
def TakesValues (reader : Reader α) : Prop :=
  ∀ {bytes rest : List UInt8} {x : α}, reader bytes = .ok (x, rest) →
    ∃ (gap : Blanks) (text : List UInt8), IsValue text ∧ bytes = gap.val ++ (text ++ rest)

/-- What stands at the front of a value: a scalar, or an opening bracket. -/
def IsFrontOf : Found → List UInt8 → Prop
  | .sequence, text => text = ['['.toUInt8]
  | .map, text => text = ['\x7b'.toUInt8]
  | _, text => IsValue text

theorem exists_front {bytes rest : List UInt8} {found : Found}
    (h : front bytes = .ok (found, rest)) :
    ∃ (gap : Blanks) (text : List UInt8), IsFrontOf found text ∧
      bytes = gap.val ++ (text ++ rest) := by
  unfold front at h
  split at h
  · cases h
  · rename_i b after hdrop
    obtain ⟨gap, rfl⟩ := exists_blanks hdrop
    suffices hfront : ∃ text, IsFrontOf found text ∧ b :: after = text ++ rest by
      obtain ⟨text, htext, hbytes⟩ := hfront
      exact ⟨gap, text, htext, by rw [hbytes]⟩
    split_ifs at h with hnull htrue hfalse hminus hdigit hquote harray hobject
    · obtain ⟨behind, hread, hpair⟩ := exists_of_map_eq_ok h
      obtain ⟨rfl, rfl⟩ := Prod.mk.inj hpair
      exact hnull ▸ exists_value_of_literal rfl .nullWord hread
    · obtain ⟨behind, hread, hpair⟩ := exists_of_map_eq_ok h
      obtain ⟨rfl, rfl⟩ := Prod.mk.inj hpair
      exact htrue ▸ exists_value_of_literal rfl .trueWord hread
    · obtain ⟨behind, hread, hpair⟩ := exists_of_map_eq_ok h
      obtain ⟨rfl, rfl⟩ := Prod.mk.inj hpair
      exact hfalse ▸ exists_value_of_literal rfl .falseWord hread
    · obtain ⟨n, hread, rfl⟩ := exists_of_map_pair h
      obtain ⟨text, htext, rfl⟩ := exists_unsigned_of_unsignedNumber hread
      have hvalue : IsValue ('-'.toUInt8 :: text) := .negative htext
      exact ⟨_, hvalue, by rw [hminus, List.cons_append]⟩
    · obtain ⟨n, hread, rfl⟩ := exists_of_map_pair h
      obtain ⟨text, htext, hbytes⟩ := exists_unsigned_of_unsignedNumber hread
      have hvalue : IsValue text := .unsigned htext
      exact ⟨text, hvalue, hbytes⟩
    · obtain ⟨s, hread, rfl⟩ := exists_of_map_pair h
      exact hquote ▸ (endsString_of_stringRest hread).exists_value
    · obtain ⟨rfl, rfl⟩ := Prod.mk.inj (Except.ok.inj h)
      exact ⟨['['.toUInt8], rfl, by rw [harray, List.singleton_append]⟩
    · obtain ⟨rfl, rfl⟩ := Prod.mk.inj (Except.ok.inj h)
      exact ⟨['\x7b'.toUInt8], rfl, by rw [hobject, List.singleton_append]⟩
    · cases h

theorem takesValues_string : TakesValues string := by
  intro bytes rest s h
  unfold string at h
  split at h
  · cases h
  · rename_i hfront
    obtain ⟨-, rfl⟩ := Prod.mk.inj (Except.ok.inj h)
    exact exists_front hfront
  · cases h

theorem takesValues_integer (low high : Int) (expected : String) :
    TakesValues (integer low high expected) := by
  intro bytes rest n h
  unfold integer at h
  split at h
  · cases h
  · rename_i hfront
    split at h
    · obtain ⟨-, rfl⟩ := Prod.mk.inj (Except.ok.inj h)
      exact exists_front hfront
    · cases h
  · cases h

theorem takesValues_natural (width : Nat) (expected : String) :
    TakesValues (natural width expected) := by
  intro bytes rest n h
  obtain ⟨m, hread, -⟩ := exists_of_map_pair h
  exact takesValues_integer _ _ _ hread

theorem TakesValues.optional {reader : Reader α} (h : TakesValues reader) :
    TakesValues (optional reader) := by
  intro bytes rest x hread
  unfold Json.optional at hread
  split at hread
  · cases hread
  · rename_i b behind hdrop
    obtain ⟨gap, rfl⟩ := exists_blanks hdrop
    split at hread
    · rename_i hnull
      obtain ⟨after, hword, hpair⟩ := exists_of_map_eq_ok hread
      obtain ⟨-, rfl⟩ := Prod.mk.inj hpair
      have hvalue : ∃ text, IsValue text ∧ 'n'.toUInt8 :: behind = text ++ after :=
        exists_value_of_literal rfl .nullWord hword
      obtain ⟨text, htext, hbytes⟩ := hvalue
      exact ⟨gap, text, htext, by rw [hnull, hbytes]⟩
    · obtain ⟨y, hvalue, -⟩ := exists_of_map_pair hread
      obtain ⟨gap', text, htext, hbytes⟩ := h hvalue
      exact ⟨gap.append gap', text, htext, by rw [hbytes]; simp [Blanks.append]⟩

/-! ## Arrays that are read -/

open Shape (itemsAt)

theorem itemsAt_nil (index : Nat) (gap : Blanks) (rest : List UInt8) :
    itemsAt index gap [] rest = gap.val ++ ']'.toUInt8 :: rest := by
  unfold itemsAt
  split <;> rfl

theorem exists_itemsAt_nil {first : Bool} {bytes rest : List UInt8}
    (h : itemAhead first bytes = .ok (.closed rest)) (index : Nat) :
    ∃ gap, bytes = itemsAt index gap [] rest := by
  unfold itemAhead at h
  split at h
  · cases h
  · rename_i b behind hdrop
    split at h
    · rename_i hclose
      obtain rfl := Ahead.closed.inj (Except.ok.inj h)
      obtain ⟨gap, rfl⟩ := exists_blanks hdrop
      exact ⟨gap, by rw [itemsAt_nil, hclose]⟩
    · split at h
      · cases h
      · split at h
        · split at h
          · cases h
          · split at h <;> cases h
        · cases h

/-- An item and those behind it, with what stands in front of it. -/
theorem exists_itemsAt_cons {index : Nat} {bytes behind text rest : List UInt8}
    (h : itemAhead (index = 0) bytes = .ok (.item behind)) {before after : Blanks}
    {parts : List Spaced}
    (hbehind : behind = before.val ++ (text ++ itemsAt (index + 1) after parts rest)) :
    ∃ gap part, part.text = text ∧ bytes = itemsAt index gap (part :: parts) rest := by
  have hafter : itemsAt (index + 1) after parts rest = after.val ++ itemsBehind parts rest :=
    if_neg (Nat.succ_ne_zero index)
  rw [hafter] at hbehind
  unfold itemAhead at h
  split at h
  · cases h
  · rename_i b bytes' hdrop
    obtain ⟨gap, rfl⟩ := exists_blanks hdrop
    split at h
    · cases h
    · split at h
      · rename_i hfirst
        obtain rfl := Ahead.item.inj (Except.ok.inj h)
        refine ⟨gap, ⟨before, text, after⟩, rfl, ?_⟩
        rw [itemsAt, if_pos (of_decide_eq_true hfirst), arrayInside_cons, hbehind]
        simp [Spaced.bytes]
      · rename_i hfirst
        split at h
        · rename_i hcomma
          split at h
          · cases h
          · rename_i c bytes'' hdrop'
            obtain ⟨gap', rfl⟩ := exists_blanks hdrop'
            split at h
            · cases h
            · obtain rfl := Ahead.item.inj (Except.ok.inj h)
              refine ⟨gap, ⟨gap'.append before, text, after⟩, rfl, ?_⟩
              rw [itemsAt, if_neg fun heq => hfirst (decide_eq_true heq), itemsBehind_cons, hcomma,
                hbehind]
              simp [Spaced.bytes, Blanks.append]
        · cases h

theorem exists_items_of_items {item : Reader α} (hitem : TakesValues item) {clock : List UInt8}
    {taken xs : List α} {index : Nat} {bytes rest : List UInt8}
    (h : items item clock taken index bytes = .ok (xs, rest)) :
    ∃ gap parts, (∀ part ∈ parts, IsValue part.text) ∧ bytes = itemsAt index gap parts rest := by
  induction clock generalizing taken index bytes with
  | nil => cases h
  | cons tick clock ih =>
    rw [items] at h
    split at h
    · cases h
    · rename_i behind hahead
      obtain ⟨-, rfl⟩ := Prod.mk.inj (Except.ok.inj h)
      obtain ⟨gap, hbytes⟩ := exists_itemsAt_nil hahead index
      exact ⟨gap, [], fun _ hm => absurd hm List.not_mem_nil, hbytes⟩
    · rename_i behind hahead
      split at h
      · cases h
      · rename_i x after hread
        obtain ⟨before, text, htext, hbehind⟩ := hitem (eq_ok_of_mapError hread)
        obtain ⟨gap, parts, hparts, rfl⟩ := ih h
        obtain ⟨gap', part, rfl, hbytes⟩ := exists_itemsAt_cons hahead hbehind
        exact ⟨gap', part :: parts, List.forall_mem_cons.mpr ⟨htext, hparts⟩, hbytes⟩

theorem TakesValues.list {item : Nat → Reader α} (h : ∀ depth, TakesValues (item depth))
    (depth : Nat) : TakesValues (list item depth) := by
  intro bytes rest xs hread
  unfold Json.list at hread
  split at hread
  · cases hread
  · rename_i behind hfront
    cases depth with
    | zero => cases hread
    | succ depth =>
      obtain ⟨gap, text, rfl, rfl⟩ := exists_front hfront
      obtain ⟨gap', parts, hparts, rfl⟩ := exists_items_of_items (h depth) hread
      exact ⟨gap, _, .array gap' hparts, by rw [arrayText_append]; rfl⟩
  · cases hread

/-! ## Records that are read -/

/-- Where the members of an object stand: in front of the first one, or behind another one. -/
def membersAt (first : Bool) (gap : Blanks) (ms : List Member) (rest : List UInt8) : List UInt8 :=
  if first then objectInside gap ms rest else gap.val ++ membersBehind ms rest

theorem membersAt_nil (first : Bool) (gap : Blanks) (rest : List UInt8) :
    membersAt first gap [] rest = gap.val ++ '\x7d'.toUInt8 :: rest := by
  cases first <;> rfl

theorem exists_membersAt_nil {first : Bool} {bytes rest : List UInt8}
    (h : keyAhead first bytes = .ok (.closed rest)) :
    ∃ gap, bytes = membersAt first gap [] rest := by
  unfold keyAhead at h
  split at h
  · cases h
  · rename_i b behind hdrop
    split at h
    · rename_i hclose
      obtain rfl := Ahead.closed.inj (Except.ok.inj h)
      obtain ⟨gap, rfl⟩ := exists_blanks hdrop
      exact ⟨gap, by rw [membersAt_nil, hclose]⟩
    · split at h
      · split at h <;> cases h
      · split at h
        · split at h
          · cases h
          · split at h
            · cases h
            · split at h <;> cases h
        · cases h

/-- A member and those behind it, with what stands in front of it. -/
theorem exists_membersAt_cons {first : Bool} {bytes behind rest : List UInt8}
    (h : keyAhead first bytes = .ok (.item behind)) {key value : Spaced} {ms : List Member}
    (hbehind : behind = key.text ++ '"'.toUInt8 :: (key.behind.val ++ ':'.toUInt8 ::
      (value.before.val ++ (value.text ++ membersAt false value.behind ms rest)))) :
    ∃ gap m, m.key.text = key.text ∧ m.value = value ∧ bytes = membersAt first gap (m :: ms) rest := by
  unfold keyAhead at h
  split at h
  · cases h
  · rename_i b bytes' hdrop
    obtain ⟨gap, rfl⟩ := exists_blanks hdrop
    split at h
    · cases h
    · split at h
      · rename_i hfirst
        split at h
        · rename_i hquote
          obtain rfl := Ahead.item.inj (Except.ok.inj h)
          refine ⟨gap, ⟨⟨.none, key.text, key.behind⟩, value⟩, rfl, rfl, ?_⟩
          rw [membersAt, if_pos hfirst, objectInside_cons, hquote, hbehind]
          simp [Member.bytes, Member.opened, Spaced.bytes, membersAt, Blanks.none]
        · cases h
      · rename_i hfirst
        split at h
        · rename_i hcomma
          split at h
          · cases h
          · rename_i c bytes'' hdrop'
            obtain ⟨gap', rfl⟩ := exists_blanks hdrop'
            split at h
            · rename_i hquote
              obtain rfl := Ahead.item.inj (Except.ok.inj h)
              refine ⟨gap, ⟨⟨gap', key.text, key.behind⟩, value⟩, rfl, rfl, ?_⟩
              rw [membersAt, if_neg hfirst, membersBehind_cons, hcomma, hquote, hbehind]
              simp [Member.bytes, Member.opened, Spaced.bytes, membersAt]
            · split at h <;> cases h
        · cases h

theorem exists_key_of_nextKey {first : Bool} {bytes rest : List UInt8} {name : String}
    (h : nextKey first bytes = .ok (.key name rest)) :
    ∃ behind, keyAhead first bytes = .ok (.item behind) ∧ EndsString behind rest := by
  unfold nextKey at h
  split at h
  · cases h
  · cases h
  · rename_i behind hahead
    split at h
    · cases h
    · rename_i hstring
      obtain ⟨-, rfl⟩ := NextKey.key.inj (Except.ok.inj h)
      exact ⟨behind, hahead, endsString_of_stringRest hstring⟩

theorem keyAhead_of_nextKey_closed {first : Bool} {bytes rest : List UInt8}
    (h : nextKey first bytes = .ok (.closed rest)) : keyAhead first bytes = .ok (.closed rest) := by
  unfold nextKey at h
  split at h
  · cases h
  · rename_i hahead
    rw [hahead, NextKey.closed.inj (Except.ok.inj h)]
  · split at h <;> cases h

/-- The value of a member stands behind its colon. -/
theorem exists_of_memberValue {name : String} {item : Reader α} {bytes rest : List UInt8} {x : α}
    (h : memberValue name item bytes = .ok (x, rest)) :
    ∃ (gap : Blanks) (behind : List UInt8), bytes = gap.val ++ ':'.toUInt8 :: behind ∧
      item behind = .ok (x, rest) := by
  unfold memberValue at h
  split at h
  · cases h
  · rename_i behind hcolon
    obtain ⟨gap, rfl⟩ := exists_colon hcolon
    exact ⟨gap, behind, rfl, eq_ok_of_mapError h⟩

namespace Shape

variable {shape : Shape σ} {depth : Nat}

theorem exists_members_of_members (hfields : ∀ field ∈ shape.fields, TakesValues (field.read depth))
    {clock : List UInt8} {first : Bool} {seen : List String} {x y : σ} {bytes rest : List UInt8}
    (h : shape.members depth clock first seen x bytes = .ok (y, rest)) :
    ∃ gap ms, (∀ m ∈ ms, m.WellFormed) ∧ bytes = membersAt first gap ms rest := by
  induction clock generalizing first seen x bytes with
  | nil => cases h
  | cons tick clock ih =>
    rw [members] at h
    split at h
    · cases h
    · rename_i behind hkey
      split at h
      · cases h
      · obtain ⟨-, rfl⟩ := Prod.mk.inj (Except.ok.inj h)
        obtain ⟨gap, hbytes⟩ :=
          exists_membersAt_nil (keyAhead_of_nextKey_closed (eq_ok_of_mapError hkey))
        exact ⟨gap, [], fun _ hm => absurd hm List.not_mem_nil, hbytes⟩
    · rename_i name behind hkey
      obtain ⟨opened, hahead, body, hbody, rfl⟩ := exists_key_of_nextKey (eq_ok_of_mapError hkey)
      -- a member is a key, a colon and a value, whether its field is known or not
      suffices hvalue : ∃ (gap before : Blanks) (text after : List UInt8), IsValue text ∧
          behind = gap.val ++ ':'.toUInt8 :: (before.val ++ (text ++ after)) ∧
          ∃ seen x, shape.members depth clock false seen x after = .ok (y, rest) by
        obtain ⟨gap, before, text, after, htext, rfl, seen, x, hread⟩ := hvalue
        obtain ⟨gap', ms, hms, rfl⟩ := ih hread
        have hcons := @exists_membersAt_cons first bytes _ rest hahead ⟨.none, body, gap⟩
          ⟨before, text, gap'⟩ ms rfl
        obtain ⟨gap'', m, hmkey, hmvalue, hbytes⟩ := hcons
        have hm : m.WellFormed := ⟨by rw [hmkey]; exact hbody, by rw [hmvalue]; exact htext⟩
        exact ⟨gap'', m :: ms, List.forall_mem_cons.mpr ⟨hm, hms⟩, hbytes⟩
      split at h
      · split at h
        · cases h
        · rename_i after hskip
          cases hcolon : colon behind with
          | error fault =>
            rw [hcolon] at hskip
            cases hskip
          | ok value =>
            rw [hcolon] at hskip
            obtain ⟨gap, rfl⟩ := exists_colon hcolon
            obtain ⟨before, text, htext, rfl⟩ := exists_value_of_skip hskip
            exact ⟨gap, before, text, after, htext, rfl, seen, x, h⟩
      · rename_i field hfield
        split at h
        · cases h
        · split at h
          · cases h
          · rename_i set after hvalue
            obtain ⟨gap, value, rfl, hset⟩ := exists_of_memberValue hvalue
            obtain ⟨before, text, htext, rfl⟩ :=
              hfields field (List.mem_of_find?_eq_some hfield) hset
            exact ⟨gap, before, text, after, htext, rfl, name :: seen, set x, h⟩

theorem exists_blanks_of_closeItems {bytes rest : List UInt8} (h : closeItems bytes = .ok rest) :
    ∃ gap : Blanks, bytes = gap.val ++ ']'.toUInt8 :: rest := by
  unfold closeItems at h
  split at h
  · cases h
  · rename_i b behind hdrop
    split at h
    · rename_i hclose
      obtain rfl := Except.ok.inj h
      exact hclose ▸ exists_blanks hdrop
    · split at h <;> cases h

theorem exists_items_of_items {fields : List (Field σ)}
    (hfields : ∀ field ∈ fields, TakesValues (field.read depth)) {index : Nat} {x y : σ}
    {bytes rest : List UInt8} (h : shape.items depth fields index x bytes = .ok (y, rest)) :
    ∃ gap parts, (∀ part ∈ parts, IsValue part.text) ∧ bytes = itemsAt index gap parts rest := by
  induction fields generalizing index x bytes with
  | nil =>
    obtain ⟨behind, hclose, hpair⟩ := exists_of_map_eq_ok h
    obtain ⟨-, rfl⟩ := Prod.mk.inj hpair
    obtain ⟨gap, rfl⟩ := exists_blanks_of_closeItems hclose
    exact ⟨gap, [], fun _ hm => absurd hm List.not_mem_nil, (itemsAt_nil index gap behind).symm⟩
  | cons field fields ih =>
    rw [List.forall_mem_cons] at hfields
    rw [items] at h
    split at h
    · cases h
    · rename_i behind hahead
      split at h
      · cases h
      · obtain ⟨-, rfl⟩ := Prod.mk.inj (Except.ok.inj h)
        obtain ⟨gap, hbytes⟩ := exists_itemsAt_nil hahead index
        exact ⟨gap, [], fun _ hm => absurd hm List.not_mem_nil, hbytes⟩
    · rename_i behind hahead
      split at h
      · cases h
      · rename_i set after hread
        obtain ⟨before, text, htext, hbehind⟩ := hfields.1 (eq_ok_of_mapError hread)
        obtain ⟨gap, parts, hparts, rfl⟩ := ih hfields.2 h
        obtain ⟨gap', part, rfl, hbytes⟩ := exists_itemsAt_cons hahead hbehind
        exact ⟨gap', part :: parts, List.forall_mem_cons.mpr ⟨htext, hparts⟩, hbytes⟩

/-- A record takes nothing but values when its fields do. -/
theorem takesValues (hfields : ∀ field ∈ shape.fields, ∀ depth, TakesValues (field.read depth))
    (depth : Nat) : TakesValues (shape.read depth) := by
  intro bytes rest x h
  unfold Shape.read at h
  split at h
  · cases h
  · rename_i behind hfront
    cases depth with
    | zero => cases h
    | succ depth =>
      obtain ⟨gap, text, rfl, rfl⟩ := exists_front hfront
      obtain ⟨gap', ms, hms, rfl⟩ :=
        exists_members_of_members (fun field hfield => hfields field hfield depth) h
      exact ⟨gap, _, .of_members gap' hms, by rw [objectText_append]; rfl⟩
  · rename_i behind hfront
    cases depth with
    | zero => cases h
    | succ depth =>
      obtain ⟨gap, text, rfl, rfl⟩ := exists_front hfront
      obtain ⟨gap', parts, hparts, rfl⟩ :=
        exists_items_of_items (fun field hfield => hfields field hfield depth) h
      exact ⟨gap, _, .array gap' hparts, by rw [arrayText_append]; rfl⟩
  · cases h

end Shape

theorem Field.takesValues_optional {name : String} {read : Nat → Reader α} {set : α → σ → σ}
    {depth : Nat} (h : TakesValues (read depth)) :
    TakesValues ((Field.optional name read set).read depth) := by
  intro bytes rest x hread
  obtain ⟨y, hvalue, -⟩ := exists_of_map_pair hread
  exact h hvalue

/-- **Only values are accepted.**  A text that is read as a whole is one value between blanks. -/
theorem TakesValues.read {reader : Nat → Reader α} (h : TakesValues (reader maxDepth))
    {bytes : List UInt8} {x : α} (hread : Json.read reader bytes = .ok x) :
    ∃ (before behind : Blanks) (text : List UInt8), IsValue text ∧
      bytes = before.val ++ (text ++ behind.val) := by
  unfold Json.read at hread
  split at hread
  · cases hread
  · rename_i y rest hvalue
    split at hread
    · rename_i hrest
      obtain ⟨before, text, htext, rfl⟩ := h hvalue
      obtain ⟨behind, rfl⟩ := exists_blanks hrest
      exact ⟨before, behind, text, htext, by rw [List.append_nil]⟩
    · cases hread

end SearchGateway.Json
