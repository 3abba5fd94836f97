/-
  SearchGateway.Proofs.Settling

  What a reader makes of a string or a number is settled by its text alone: what stands behind it
  has no say.
-/
import SearchGateway.Json.Reader
import SearchGateway.Proofs.Skipping

namespace SearchGateway.Json

variable {α β : Type}

/-! ## Outcomes -/

theorem toOption_eq_some_iff {ε : Type} {r : Except ε α} {x : α} :
    r.toOption = some x ↔ r = .ok x := by
  cases r <;> simp [Except.toOption]

theorem toOption_eq_none_iff {ε : Type} {r : Except ε α} :
    r.toOption = none ↔ ∃ e, r = .error e := by
  cases r <;> simp [Except.toOption]

@[simp] theorem toOption_ok {ε : Type} (x : α) : (.ok x : Except ε α).toOption = some x := rfl

@[simp] theorem toOption_error {ε : Type} (e : ε) : (.error e : Except ε α).toOption = none := rfl

@[simp] theorem toOption_map {ε : Type} (f : α → β) (r : Except ε α) :
    (r.map f).toOption = r.toOption.map f := by
  cases r <;> rfl

@[simp] theorem toOption_under (segment : Segment) (r : Except Fault α) :
    (under segment r).toOption = r.toOption := by
  cases r <;> rfl

@[simp] theorem toOption_malformed (how : Malformation) :
    (malformed how : Except Fault α).toOption = none := rfl

@[simp] theorem toOption_mismatched (how : Mismatch) :
    (mismatched how : Except Fault α).toOption = none := rfl

@[simp] theorem toOption_ended (inside : Unfinished) :
    (ended inside : Except Fault α).toOption = none := rfl

theorem exists_of_map_eq_ok {β γ ε : Type} {result : Except ε β} {f : β → γ} {z : γ}
    (h : result.map f = .ok z) : ∃ y, result = .ok y ∧ f y = z := by
  cases result with
  | error e => cases h
  | ok y => exact ⟨y, rfl, Except.ok.inj h⟩

/-- What is paired with a result is kept. -/
theorem eq_of_map_pair {β γ ε : Type} {result : Except ε β} {f : β → γ} {x : γ}
    {bytes rest : List UInt8} (h : (result.map fun y => (f y, bytes)) = .ok (x, rest)) :
    bytes = rest := by
  obtain ⟨y, -, hpair⟩ := exists_of_map_eq_ok h
  exact (Prod.mk.inj hpair).2

/-- A reader whose result is changed leaves the same rest. -/
theorem exists_of_map_pair {β γ : Type} {result : Except Fault (β × List UInt8)} {f : β → γ} {x : γ}
    {rest : List UInt8} (h : (result.map fun (y, rest) => (f y, rest)) = .ok (x, rest)) :
    ∃ y, result = .ok (y, rest) ∧ f y = x := by
  obtain ⟨⟨y, behind⟩, hresult, hpair⟩ := exists_of_map_eq_ok h
  obtain ⟨hx, rfl⟩ := Prod.mk.inj hpair
  exact ⟨y, hresult, hx⟩

/-! ## Strings -/

section CodeUnits

variable {h₁ h₂ h₃ h₄ : UInt8} {n : Nat} (hn : codeUnit? h₁ h₂ h₃ h₄ = some n)
include hn

theorem stringBytes_low (hlow : isLowSurrogate n = true) (taken rest : List UInt8) :
    stringBytes taken ('\\'.toUInt8 :: 'u'.toUInt8 :: h₁ :: h₂ :: h₃ :: h₄ :: rest) =
      malformed .loneSurrogate := by
  rw [stringBytes.eq_def]
  simp only [hn, hlow]
  rfl

/-- A code unit outside the surrogates is the character it numbers. -/
theorem stringBytes_single (hlow : isLowSurrogate n = false) (hhigh : isHighSurrogate n = false)
    (taken rest : List UInt8) :
    stringBytes taken ('\\'.toUInt8 :: 'u'.toUInt8 :: h₁ :: h₂ :: h₃ :: h₄ :: rest) =
      stringBytes (pushChar taken (Char.ofNat n)) rest := by
  rw [stringBytes.eq_def]
  simp only [hn, hlow, hhigh]
  rfl

/-- A code unit that opens a surrogate pair, with another escape behind it. -/
theorem stringBytes_pair (hlow : isLowSurrogate n = false) (hhigh : isHighSurrogate n = true)
    {l₁ l₂ l₃ l₄ : UInt8} {m : Nat} (hm : codeUnit? l₁ l₂ l₃ l₄ = some m)
    (taken rest : List UInt8) :
    stringBytes taken ('\\'.toUInt8 :: 'u'.toUInt8 :: h₁ :: h₂ :: h₃ :: h₄ ::
        '\\'.toUInt8 :: 'u'.toUInt8 :: l₁ :: l₂ :: l₃ :: l₄ :: rest) =
      if isLowSurrogate m then stringBytes (pushChar taken (surrogatePair n m)) rest
      else malformed .loneSurrogate := by
  rw [stringBytes.eq_def]
  simp only [hn, hlow, hhigh, hm]
  rfl

/-- A code unit that opens a surrogate pair, with anything else behind it. -/
theorem toOption_stringBytes_lone (hlow : isLowSurrogate n = false)
    (hhigh : isHighSurrogate n = true) {b : UInt8} {behind : List UInt8}
    (hbehind : b ≠ '\\'.toUInt8 ∨ behind.head? ≠ some 'u'.toUInt8) (taken : List UInt8) :
    (stringBytes taken ('\\'.toUInt8 :: 'u'.toUInt8 :: h₁ :: h₂ :: h₃ :: h₄ ::
      b :: behind)).toOption = none := by
  rw [stringBytes.eq_def]
  simp only [hn, hlow, hhigh]
  cases behind with
  | nil =>
    show (if b = '\\'.toUInt8 then ended .string
      else malformed .unexpectedEndOfHexEscape : Except Fault _).toOption = none
    split <;> rfl
  | cons letter behind =>
    have hpair : ¬ (b = '\\'.toUInt8 ∧ letter = 'u'.toUInt8) := by
      rintro ⟨rfl, rfl⟩
      simp at hbehind
    simp only [if_neg hpair]
    rfl

end CodeUnits

/-- What the content of a string stands for does not depend on what follows the closing quote. -/
theorem exists_stringBytes {body : List UInt8} (h : IsStringBody body) (taken : List UInt8) :
    ∃ outcome : Option (List UInt8), ∀ rest,
      (stringBytes taken (body ++ '"'.toUInt8 :: rest)).toOption = outcome.map (·, rest) := by
  -- a surrogate pair takes two escapes at once, so the induction is on the length
  induction hlength : body.length using Nat.strongRecOn generalizing body taken with
  | ind n ih =>
    subst hlength
    cases h with
    | nil =>
      refine ⟨some taken.reverse, fun rest => ?_⟩
      rw [List.nil_append, stringBytes.eq_def]
      rfl
    | @plain b body hquote hslash hcontrol hbody =>
      obtain ⟨outcome, houtcome⟩ := ih body.length (by simp) hbody (b :: taken) rfl
      refine ⟨outcome, fun rest => ?_⟩
      rw [List.cons_append, stringBytes_plain hquote hslash hcontrol, houtcome]
    | @short letter body hletter hbody =>
      have hne : letter ≠ 'u'.toUInt8 := by
        rintro rfl
        exact absurd hletter (by decide)
      obtain ⟨byte, hbyte⟩ := Option.isSome_iff_exists.mp hletter
      obtain ⟨outcome, houtcome⟩ :=
        ih body.length (by simp only [List.length_cons]; omega) hbody (byte :: taken) rfl
      refine ⟨outcome, fun rest => ?_⟩
      rw [List.cons_append, List.cons_append, stringBytes_shortEscape hne hbyte, houtcome]
    | @unit h₁ h₂ h₃ h₄ body hunit hbody =>
      obtain ⟨n, hn⟩ := Option.isSome_iff_exists.mp hunit
      by_cases hlow : isLowSurrogate n = true
      · exact ⟨none, fun rest => by simp [stringBytes_low hn hlow]⟩
      rw [Bool.not_eq_true] at hlow
      by_cases hhigh : isHighSurrogate n = true
      · -- the other half of the pair has to follow
        cases hbody with
        | nil =>
          exact ⟨none, fun rest => toOption_stringBytes_lone hn hlow hhigh (.inl (by decide)) taken⟩
        | plain _ hslash =>
          exact ⟨none, fun rest => toOption_stringBytes_lone hn hlow hhigh (.inl hslash) taken⟩
        | @short letter body hletter =>
          have hne : letter ≠ 'u'.toUInt8 := by
            rintro rfl
            exact absurd hletter (by decide)
          exact ⟨none, fun rest => toOption_stringBytes_lone hn hlow hhigh
            (.inr (by simpa using hne)) taken⟩
        | @unit l₁ l₂ l₃ l₄ body hunit hbody =>
          obtain ⟨m, hm⟩ := Option.isSome_iff_exists.mp hunit
          have hpair := stringBytes_pair hn hlow hhigh hm taken
          by_cases hclose : isLowSurrogate m = true
          · obtain ⟨outcome, houtcome⟩ := ih body.length (by simp only [List.length_cons]; omega)
              hbody (pushChar taken (surrogatePair n m)) rfl
            refine ⟨outcome, fun rest => ?_⟩
            rw [← houtcome rest]
            simp only [List.cons_append, hpair, if_pos hclose]
          · refine ⟨none, fun rest => ?_⟩
            simp only [List.cons_append, hpair, if_neg hclose]
            rfl
      · rw [Bool.not_eq_true] at hhigh
        obtain ⟨outcome, houtcome⟩ := ih body.length (by simp only [List.length_cons]; omega) hbody
          (pushChar taken (Char.ofNat n)) rfl
        refine ⟨outcome, fun rest => ?_⟩
        rw [← houtcome rest]
        simp only [List.cons_append, stringBytes_single hn hlow hhigh]

/-- What the content of a string is read as: `none` where it is no text. -/
def Names (body : List UInt8) (outcome : Option String) : Prop :=
  ∀ rest, (stringRest (body ++ '"'.toUInt8 :: rest)).toOption = outcome.map (·, rest)

/-- The content of a string is read as some text, or as none. -/
theorem exists_names {body : List UInt8} (h : IsStringBody body) :
    ∃ outcome, Names body outcome := by
  obtain ⟨outcome, houtcome⟩ := exists_stringBytes h []
  refine ⟨outcome.bind fun content => (Text.Utf8.decode? content).map String.ofList,
    fun rest => ?_⟩
  have hread := houtcome rest
  rw [stringRest]
  cases outcome with
  | none =>
    obtain ⟨fault, hfault⟩ := toOption_eq_none_iff.mp hread
    rw [hfault]
    rfl
  | some content =>
    rw [toOption_eq_some_iff.mp hread]
    cases hdecode : Text.Utf8.decode? content <;> simp [hdecode]

/-! ## Plain names -/

/-- Letters that stand for themselves between quotes. -/
def IsUnescaped (name : String) : Prop :=
  wordText name = Text.Utf8.encode (name.toList.flatMap escapeChar) ∧
    ∀ b ∈ wordText name, b ≠ '"'.toUInt8 ∧ b ≠ '\\'.toUInt8 ∧ 0x20 ≤ b

instance (name : String) : Decidable (IsUnescaped name) :=
  inferInstanceAs (Decidable (_ ∧ _))

theorem IsUnescaped.isStringBody {name : String} (h : IsUnescaped name) :
    IsStringBody (wordText name) := by
  obtain ⟨-, hbytes⟩ := h
  generalize wordText name = bytes at hbytes ⊢
  induction bytes with
  | nil => exact .nil
  | cons b body ih =>
    obtain ⟨⟨hquote, hslash, hcontrol⟩, hrest⟩ := List.forall_mem_cons.mp hbytes
    exact .plain hquote hslash hcontrol (ih hrest)

theorem IsUnescaped.names {name : String} (hname : IsUnescaped name) :
    Names (wordText name) (some name) := by
  intro rest
  rw [hname.1, stringRest_escaped]
  rfl

theorem IsUnescaped.not_names {name other : String} (hname : IsUnescaped name) (h : name ≠ other) :
    ¬ Names (wordText name) (some other) := by
  intro hother
  have hread := (hname.names []).symm.trans (hother [])
  exact h (Prod.mk.inj (Option.some.inj hread)).1

/-! ## Numbers -/

theorem digits_run {run rest : List UInt8} (hrun : ∀ b ∈ run, isDigit b = true)
    (hrest : PastDigits rest) (significand taken : Nat) :
    digits significand taken (run ++ rest) = ((digits significand taken run).1, rest) := by
  induction run generalizing significand taken with
  | nil =>
    cases rest with
    | nil => rfl
    | cons b rest =>
      have hb : digit? b = none := by simpa [isDigit] using hrest b rfl
      simp [digits, hb]
  | cons b run ih =>
    have hall := hrun
    rw [List.forall_mem_cons] at hrun
    obtain ⟨d, hd⟩ := Option.isSome_iff_exists.mp hrun.1
    simp only [List.cons_append, digits, hd]
    split
    · exact ih hrun.2 _ _
    · -- from the first digit that does not fit, the rest of the run is dropped
      have htake := takeWhile_digits hall hrest
      have hself : (b :: run).takeWhile isDigit = b :: run := by
        have hnil : PastDigits [] := by simp [PastDigits]
        simpa using takeWhile_digits hall hnil
      rw [List.cons_append] at htake
      rw [htake, hself, dropWhile_digits hrun.2 hrest]

/-- The double that digits and an exponent make, where they make one. -/
def scaled? (negative : Bool) (significand : Nat) (exponent : Int) (below : Bool)
    (written : Nat) : Option Double :=
  if written ≤ maxExponent then
    (doubleOf negative significand (exponent + if below then -(written : Int) else written)).toOption
  else if significand ≠ 0 ∧ below = false then none
  else some (signedZero negative)

/-- The exponent behind its sign. -/
theorem toOption_scaled (negative : Bool) (significand : Nat) (exponent : Int) (below : Bool)
    (written : Nat) (rest : List UInt8) :
    (if written ≤ maxExponent then
      match doubleOf negative significand
          (exponent + if below then -(written : Int) else written) with
      | .error fault => Except.error fault
      | .ok x => .ok (x, rest)
    else if significand ≠ 0 ∧ below = false then malformed .numberOutOfRange
    else .ok (signedZero negative, rest)).toOption =
      (scaled? negative significand exponent below written).map (·, rest) := by
  rw [scaled?]
  split
  · cases doubleOf negative significand _ <;> rfl
  · split <;> rfl

theorem exists_exponentPart {sign run : List UInt8} (hsign : IsSign sign) (h : IsDigits run)
    (negative : Bool) (significand : Nat) (exponent : Int) :
    ∃ outcome : Option Double, ∀ rest, Delimited rest →
      (exponentPart negative significand exponent (sign ++ (run ++ rest))).toOption =
        outcome.map (·, rest) := by
  obtain ⟨b, tail, rfl, hb, htail⟩ := h.exists_cons
  have htake (rest : List UInt8) (hrest : Delimited rest) :
      (b :: (tail ++ rest)).takeWhile isDigit = b :: tail := by
    rw [← List.cons_append, takeWhile_digits h.all hrest.pastDigits]
  have hdrop (rest : List UInt8) (hrest : Delimited rest) :
      (tail ++ rest).dropWhile isDigit = rest :=
    dropWhile_digits htail hrest.pastDigits
  cases hsign with
  | absent =>
    refine ⟨scaled? negative significand exponent false (natOfDigits (b :: tail)),
      fun rest hrest => ?_⟩
    have hplus : b ≠ '+'.toUInt8 := ne_of_isDigit hb (by decide)
    have hminus : b ≠ '-'.toUInt8 := ne_of_isDigit hb (by decide)
    rw [List.nil_append, List.cons_append, exponentPart, if_neg hplus, if_neg hminus]
    dsimp only
    rw [if_pos hb, htake rest hrest, hdrop rest hrest]
    exact toOption_scaled negative significand exponent false _ rest
  | plus =>
    refine ⟨scaled? negative significand exponent false (natOfDigits (b :: tail)),
      fun rest hrest => ?_⟩
    rw [List.singleton_append, List.cons_append, exponentPart, if_pos rfl]
    dsimp only
    rw [if_pos hb, htake rest hrest, hdrop rest hrest]
    exact toOption_scaled negative significand exponent false _ rest
  | minus =>
    have hplus : '-'.toUInt8 ≠ '+'.toUInt8 := by decide
    refine ⟨scaled? negative significand exponent true (natOfDigits (b :: tail)),
      fun rest hrest => ?_⟩
    rw [List.singleton_append, List.cons_append, exponentPart, if_neg hplus, if_pos rfl]
    dsimp only
    rw [if_pos hb, htake rest hrest, hdrop rest hrest]
    exact toOption_scaled negative significand exponent true _ rest

/-- A text behind a number is no fraction and no exponent. -/
theorem not_mark_of_delimited {b : UInt8} {rest : List UInt8} (h : Delimited (b :: rest)) :
    b ≠ '.'.toUInt8 ∧ ¬ (b = 'e'.toUInt8 ∨ b = 'E'.toUInt8) := by
  have hb := delimited_cons.mp h
  simp only [continuesNumber, Bool.or_eq_false_iff, beq_eq_false_iff_ne] at hb
  exact ⟨hb.1.1.2, not_or.mpr ⟨hb.1.2, hb.2⟩⟩

theorem exists_optionalExponent {text : List UInt8} (h : IsExponent text) (negative : Bool)
    (significand : Nat) (exponent : Int) :
    ∃ outcome : Option Double, ∀ rest, Delimited rest →
      (optionalExponent negative significand exponent (text ++ rest)).toOption =
        outcome.map (·, rest) := by
  cases h with
  | absent =>
    refine ⟨(doubleOf negative significand exponent).toOption, fun rest hrest => ?_⟩
    cases rest with
    | nil => simp [optionalExponent]
    | cons b rest => simp [optionalExponent, not_mark_of_delimited hrest]
  | @present mark sign run hmark hsign hrun =>
    obtain ⟨outcome, houtcome⟩ := exists_exponentPart hsign hrun negative significand exponent
    refine ⟨outcome, fun rest hrest => ?_⟩
    rw [List.cons_append, List.append_assoc, optionalExponent]
    simp only [if_pos hmark, houtcome rest hrest]

theorem exists_fractionPart {run text : List UInt8} (hrun : IsDigits run) (h : IsExponent text)
    (negative : Bool) (significand : Nat) (exponent : Int) :
    ∃ outcome : Option Double, ∀ rest, Delimited rest →
      (fractionPart negative significand exponent (run ++ (text ++ rest))).toOption =
        outcome.map (·, rest) := by
  obtain ⟨outcome, houtcome⟩ := exists_optionalExponent h negative
    (digits significand 0 run).1.significand (exponent - (digits significand 0 run).1.taken)
  refine ⟨outcome, fun rest hrest => ?_⟩
  have hread := digits_run hrun.all (h.pastDigits hrest) significand 0
  obtain ⟨b, tail, rfl, hb, -⟩ := hrun.exists_cons
  rw [List.cons_append] at hread ⊢
  simp only [fractionPart, hb, if_true, hread, houtcome rest hrest]

/-- The number of some digits and what stands behind them. -/
def numberBehind (negative : Bool) (found : Digits) : Reader Number
  | [] => (integerNumber negative found).map (·, [])
  | mark :: rest =>
    if mark = '.'.toUInt8 then
      (fractionPart negative found.significand found.dropped rest).map
        fun (x, rest) => (.double x, rest)
    else if mark = 'e'.toUInt8 ∨ mark = 'E'.toUInt8 then
      (exponentPart negative found.significand found.dropped rest).map
        fun (x, rest) => (.double x, rest)
    else (integerNumber negative found).map (·, mark :: rest)

theorem unsignedNumber_whole {whole behind : List UInt8} (h : IsWhole whole)
    (hbehind : PastDigits behind) (negative : Bool) :
    unsignedNumber negative (whole ++ behind) =
      numberBehind negative (digits 0 0 whole).1 behind := by
  have hread := digits_run h.all hbehind 0 0
  obtain ⟨b, tail, rfl, hb, -⟩ := h.toIsDigits.exists_cons
  have hzero : ¬ (b = '0'.toUInt8 ∧ (tail ++ behind).head?.any isDigit = true) := by
    rintro ⟨rfl, hnext⟩
    -- a zero in front is all there is before the point
    obtain rfl : tail = [] := (List.cons.inj (h.no_leading_zero rfl)).2
    obtain ⟨c, hc, hdigit⟩ := (Option.any_eq_true _ _).mp hnext
    exact absurd hdigit (by simp [hbehind c hc])
  rw [List.cons_append] at hread ⊢
  simp only [unsignedNumber, hb, if_true, if_neg hzero, hread]
  cases behind <;> rfl

/-- The number that is read behind a sign does not depend on what follows. -/
theorem exists_unsignedNumber {text : List UInt8} (h : IsUnsigned text) (negative : Bool) :
    ∃ outcome : Option Number, ∀ rest, Delimited rest →
      (unsignedNumber negative (text ++ rest)).toOption = outcome.map (·, rest) := by
  obtain @⟨whole, fraction, exponent, hwhole, hfraction, hexponent⟩ := h
  have hread (rest : List UInt8) (hrest : Delimited rest) :=
    unsignedNumber_whole hwhole (hfraction.pastDigits hexponent hrest) negative
  simp only [List.append_assoc]
  -- behind its digits a number goes on with a point, with an exponent, or not at all
  cases hfraction with
  | present hrun =>
    obtain ⟨outcome, houtcome⟩ := exists_fractionPart hrun hexponent negative
      (digits 0 0 whole).1.significand (digits 0 0 whole).1.dropped
    refine ⟨outcome.map .double, fun rest hrest => ?_⟩
    rw [hread rest hrest, List.cons_append]
    simp only [numberBehind, if_true, toOption_map, houtcome rest hrest, Option.map_map]
    rfl
  | absent =>
    cases hexponent with
    | absent =>
      refine ⟨(integerNumber negative (digits 0 0 whole).1).toOption, fun rest hrest => ?_⟩
      rw [hread rest hrest, List.nil_append, List.nil_append]
      cases rest with
      | nil => simp [numberBehind]
      | cons b rest => simp [numberBehind, not_mark_of_delimited hrest]
    | @present mark sign run hmark hsign hrun =>
      obtain ⟨outcome, houtcome⟩ := exists_exponentPart hsign hrun negative
        (digits 0 0 whole).1.significand (digits 0 0 whole).1.dropped
      have hpoint : mark ≠ '.'.toUInt8 := by
        rcases hmark with rfl | rfl <;> decide
      refine ⟨outcome.map .double, fun rest hrest => ?_⟩
      rw [hread rest hrest, List.nil_append, List.cons_append, List.append_assoc]
      simp only [numberBehind, if_neg hpoint, if_pos hmark, toOption_map, houtcome rest hrest,
        Option.map_map]
      rfl

end SearchGateway.Json
