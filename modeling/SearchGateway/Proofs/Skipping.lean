/-
  SearchGateway.Proofs.Skipping

  Passing over a value.  Whatever the value is and however deep it is nested, the pass ends right
  behind it.
-/
import SearchGateway.Proofs.JsonText

namespace SearchGateway.Json

/-! ## Passing over scalars -/

theorem skipString_body {body : List UInt8} (h : IsStringBody body) (rest : List UInt8) :
    skipString (body ++ '"'.toUInt8 :: rest) = .ok rest := by
  induction h with
  | nil =>
    rw [List.nil_append, skipString.eq_def]
    rfl
  | plain hquote hslash hcontrol _ ih =>
    rw [List.cons_append, skipString.eq_def]
    simp only [if_neg hquote, if_neg hslash, if_neg (UInt8.not_lt.mpr hcontrol), ih]
  | @short letter body hletter _ ih =>
    have hne : letter ≠ 'u'.toUInt8 := by
      rintro rfl
      exact absurd hletter (by decide)
    rw [List.cons_append, List.cons_append, skipString.eq_def]
    simp only [if_neg hne, hletter, ih]
    rfl
  | unit hunit _ ih =>
    rw [skipString.eq_def]
    simp only [List.cons_append, hunit, ih]
    rfl

theorem skipDigits_append {digits rest : List UInt8} (h : IsDigits digits)
    (hrest : PastDigits rest) : skipDigits (digits ++ rest) = .ok rest := by
  obtain ⟨b, tail, rfl, hb, htail⟩ := h.exists_cons
  rw [List.cons_append, skipDigits, if_pos hb, dropWhile_digits htail hrest]

theorem skipExponent_append {exponent rest : List UInt8} (h : IsExponent exponent)
    (hrest : Delimited rest) : skipExponent (exponent ++ rest) = .ok rest := by
  cases h with
  | absent =>
    cases rest with
    | nil => rfl
    | cons b rest =>
      have hb := delimited_cons.mp hrest
      simp only [continuesNumber, Bool.or_eq_false_iff, beq_eq_false_iff_ne] at hb
      simp only [List.nil_append, skipExponent, hb.1.2, hb.2, or_self, if_false]
  | @present mark sign digits hmark hsign hdigits =>
    have hread := skipDigits_append hdigits hrest.pastDigits
    rw [List.cons_append, List.append_assoc, skipExponent.eq_def]
    simp only [if_pos hmark]
    cases hsign with
    | absent =>
      obtain ⟨b, tail, rfl, hb, -⟩ := hdigits.exists_cons
      have hplus : b ≠ '+'.toUInt8 := ne_of_isDigit hb (by decide)
      have hminus : b ≠ '-'.toUInt8 := ne_of_isDigit hb (by decide)
      simpa only [List.nil_append, List.cons_append, hplus, hminus, or_self, if_false] using hread
    | plus => exact hread
    | minus => exact hread

theorem skipFraction_append {fraction exponent rest : List UInt8} (h : IsFraction fraction)
    (hexponent : IsExponent exponent) (hrest : Delimited rest) :
    skipFraction (fraction ++ (exponent ++ rest)) = .ok rest := by
  have hread := skipExponent_append hexponent hrest
  cases h with
  | absent =>
    rw [List.nil_append]
    cases hexponent with
    | absent =>
      cases rest with
      | nil => rfl
      | cons b rest =>
        have hb := delimited_cons.mp hrest
        simp only [continuesNumber, Bool.or_eq_false_iff, beq_eq_false_iff_ne] at hb
        rw [List.nil_append] at hread ⊢
        rw [skipFraction, if_neg hb.1.1.2, hread]
    | @present mark sign digits hmark =>
      have hpoint : mark ≠ '.'.toUInt8 := by
        rcases hmark with rfl | rfl <;> decide
      rw [List.cons_append] at hread ⊢
      rw [skipFraction, if_neg hpoint, hread]
  | present hdigits =>
    rw [List.cons_append, skipFraction, if_pos rfl,
      skipDigits_append hdigits (hexponent.pastDigits hrest)]
    exact hread

theorem skipNumber_append {text rest : List UInt8} (h : IsUnsigned text)
    (hrest : Delimited rest) : skipNumber (text ++ rest) = .ok rest := by
  obtain @⟨whole, fraction, exponent, hwhole, hfraction, hexponent⟩ := h
  have hread := skipFraction_append hfraction hexponent hrest
  have hpast := hfraction.pastDigits hexponent hrest
  obtain ⟨b, tail, rfl, hb, htail⟩ := hwhole.toIsDigits.exists_cons
  rw [List.append_assoc, List.append_assoc, List.cons_append, skipNumber]
  split
  · -- a zero in front is all there is before the point
    obtain rfl : tail = [] := (List.cons.inj (hwhole.no_leading_zero (by simp [*]))).2
    have hnext : ¬ ((fraction ++ (exponent ++ rest)).head?.any isDigit = true) := by
      rw [Option.any_eq_true]
      rintro ⟨c, hc, hdigit⟩
      exact absurd hdigit (by simp [hpast c hc])
    rw [List.nil_append, if_neg hnext, hread]
  · rw [dropWhile_digits htail hpast, hread]

/-! ## Passing over values -/

-- every lemma of this part takes the pass one step further
attribute [local simp] skipWithin

/-- Where a value is being passed over: what may stand next, the open brackets, and the bytes that
    are left. -/
structure Place where
  expecting : Expecting
  outer : List Bracket
  bytes : List UInt8

/-- From one place the pass comes to another one, and a clock that is long enough for the first
    leaves one that is long enough for the second. -/
def Leads (s t : Place) : Prop :=
  ∀ clock : List UInt8, s.bytes.length < clock.length → ∃ clock' : List UInt8,
    t.bytes.length < clock'.length ∧
      skipWithin clock s.expecting s.outer s.bytes =
        skipWithin clock' t.expecting t.outer t.bytes

theorem Leads.trans {s t u : Place} (hst : Leads s t) (htu : Leads t u) : Leads s u := by
  intro clock hclock
  obtain ⟨clock', hclock', hfirst⟩ := hst clock hclock
  obtain ⟨clock'', hclock'', hsecond⟩ := htu clock' hclock'
  exact ⟨clock'', hclock'', hfirst.trans hsecond⟩

/-- A step that takes a byte and a tick. -/
theorem Leads.of_step {s t : Place} (hlt : t.bytes.length < s.bytes.length)
    (h : ∀ tick clock, skipWithin (tick :: clock) s.expecting s.outer s.bytes =
      skipWithin clock t.expecting t.outer t.bytes) : Leads s t := by
  intro clock hclock
  cases clock with
  | nil => exact absurd hclock (Nat.not_lt_zero _)
  | cons tick clock =>
    rw [List.length_cons] at hclock
    exact ⟨clock, by omega, h tick clock⟩

/-- The pass comes from the front of a value right behind it, whatever stands around it. -/
def IsPassed (text : List UInt8) : Prop :=
  ∀ (gap : Blanks) (outer : List Bracket) {rest : List UInt8}, Delimited rest →
    Leads ⟨.value, outer, gap.val ++ (text ++ rest)⟩ ⟨.next, outer, rest⟩

/-- A scalar, or an opening bracket, is passed over in one step. -/
theorem Leads.of_skipFront {outer inner : List Bracket} {expecting : Expecting}
    {bytes rest : List UInt8} (gap : Blanks) (hlt : rest.length < bytes.length)
    (h : skipFront outer bytes = .ok (expecting, inner, rest)) :
    Leads ⟨.value, outer, gap.val ++ bytes⟩ ⟨expecting, inner, rest⟩ := by
  have hgap : skipFront outer (gap.val ++ bytes) = skipFront outer bytes := by
    rw [skipFront, skipFront, gap.dropBlank]
  refine .of_step ?_ fun tick clock => ?_
  · show rest.length < (gap.val ++ bytes).length
    rw [List.length_append]
    omega
  · simp only [skipWithin, hgap, h]

/-- The first item of an array is passed over like any value. -/
theorem Leads.of_firstItem {outer : List Bracket} {text rest : List UInt8} (h : IsValue text)
    (gap : Blanks) :
    Leads ⟨.firstItem, outer, gap.val ++ (text ++ rest)⟩
      ⟨.value, outer, gap.val ++ (text ++ rest)⟩ := by
  obtain ⟨b, tail, rfl, hblank, hclose⟩ := h.exists_cons
  intro clock hclock
  -- no byte is taken, so both places go on with the same clock
  refine ⟨clock, hclock, ?_⟩
  cases clock with
  | nil => exact absurd hclock (Nat.not_lt_zero _)
  | cons tick clock =>
    have hgap : skipFront outer (gap.val ++ (b :: (tail ++ rest))) =
        skipFront outer (b :: (tail ++ rest)) := by
      rw [skipFront, skipFront, gap.dropBlank]
    simp only [List.cons_append, skipWithin, gap.dropBlank, dropBlank_cons hblank, if_neg hclose,
      hgap]

/-- Behind an item of an array the others and the closing bracket are passed over. -/
theorem leads_items {items : List Spaced} (h : ∀ item ∈ items, IsPassed item.text)
    (gap : Blanks) (rest : List UInt8) (outer : List Bracket) :
    Leads ⟨.next, .array :: outer, gap.val ++ itemsBehind items rest⟩ ⟨.next, outer, rest⟩ := by
  induction items generalizing gap with
  | nil =>
    refine .of_step ?_ fun tick clock => ?_
    · simp only [itemsBehind_nil, List.length_append, List.length_cons]
      omega
    · simp only [itemsBehind_nil, skipWithin, gap.dropBlank]
      rfl
  | cons item items ih =>
    rw [List.forall_mem_cons] at h
    have hbehind := delimited_itemsBehind item.behind items rest
    have hitem := h.1 item.before (.array :: outer) hbehind
    have hcomma : Leads ⟨.next, .array :: outer, gap.val ++ itemsBehind (item :: items) rest⟩
        ⟨.value, .array :: outer, item.before.val ++ (item.text ++ (item.behind.val ++
          itemsBehind items rest))⟩ := by
      rw [itemsBehind_cons]
      refine .of_step ?_ fun tick clock => ?_
      · simp only [Spaced.bytes, List.length_append, List.length_cons]
        omega
      · simp only [skipWithin, gap.dropBlank, Spaced.bytes, List.append_assoc]
        rfl
    -- over the comma, over the item, and then over the items behind it
    exact hcomma.trans (hitem.trans (ih h.2 item.behind))

theorem skipKey_member {m : Member} (h : IsStringBody m.key.text) (gap : Blanks)
    (rest : List UInt8) : skipKey (gap.val ++ (m.bytes ++ rest)) = .ok (m.value.bytes ++ rest) := by
  rw [skipKey, m.dropBlank_bytes]
  simp only [if_true, m.opened_append, skipString_body h, colon_gap]

theorem Leads.of_key {m : Member} (h : IsStringBody m.key.text) (gap : Blanks)
    (rest : List UInt8) (outer : List Bracket) :
    Leads ⟨.key, outer, gap.val ++ (m.bytes ++ rest)⟩ ⟨.value, outer, m.value.bytes ++ rest⟩ := by
  refine .of_step ?_ fun tick clock => ?_
  · simp [Member.bytes, Member.opened]
    omega
  · simp only [skipWithin, skipKey_member h]

/-- The first key of an object is passed over like any key. -/
theorem Leads.of_firstKey (m : Member) (gap : Blanks) (rest : List UInt8) (outer : List Bracket) :
    Leads ⟨.firstKey, outer, gap.val ++ (m.bytes ++ rest)⟩
      ⟨.key, outer, gap.val ++ (m.bytes ++ rest)⟩ := by
  intro clock hclock
  refine ⟨clock, hclock, ?_⟩
  cases clock with
  | nil => exact absurd hclock (Nat.not_lt_zero _)
  | cons tick clock =>
    have hbrace : '"'.toUInt8 ≠ '\x7d'.toUInt8 := by decide
    have hskip : skipKey (gap.val ++ (m.bytes ++ rest)) =
        skipKey ('"'.toUInt8 :: (m.opened ++ rest)) := by
      rw [skipKey, m.dropBlank_bytes, skipKey, dropBlank_cons (by decide)]
    simp only [skipWithin, m.dropBlank_bytes, if_neg hbrace, hskip]

/-- A member of an object and those behind it are passed over, given that those behind it are. -/
theorem leads_member {m : Member} (hkey : IsStringBody m.key.text)
    (hvalue : IsPassed m.value.text)
    (gap : Blanks) {rest : List UInt8} (hrest : Delimited (m.value.behind.val ++ rest))
    (outer : List Bracket) :
    Leads ⟨.key, outer, gap.val ++ (m.bytes ++ rest)⟩
      ⟨.next, outer, m.value.behind.val ++ rest⟩ := by
  have hopened := Leads.of_key hkey gap rest outer
  rw [Spaced.bytes, List.append_assoc, List.append_assoc] at hopened
  exact hopened.trans (hvalue m.value.before outer hrest)

/-- Behind a member of an object the others and the closing bracket are passed over. -/
theorem leads_members {members : List Member} (hkeys : ∀ m ∈ members, IsStringBody m.key.text)
    (h : ∀ m ∈ members, IsPassed m.value.text)
    (gap : Blanks) (rest : List UInt8) (outer : List Bracket) :
    Leads ⟨.next, .object :: outer, gap.val ++ membersBehind members rest⟩
      ⟨.next, outer, rest⟩ := by
  induction members generalizing gap with
  | nil =>
    refine .of_step ?_ fun tick clock => ?_
    · simp only [membersBehind_nil, List.length_append, List.length_cons]
      omega
    · simp only [membersBehind_nil, skipWithin, gap.dropBlank]
      rfl
  | cons m members ih =>
    rw [List.forall_mem_cons] at h hkeys
    have hbehind := delimited_membersBehind m.value.behind members rest
    have hmember := leads_member hkeys.1 h.1 .none hbehind (.object :: outer)
    have hcomma : Leads ⟨.next, .object :: outer, gap.val ++ membersBehind (m :: members) rest⟩
        ⟨.key, .object :: outer, Blanks.none.val ++ (m.bytes ++ membersBehind members rest)⟩ := by
      rw [membersBehind_cons]
      refine .of_step ?_ fun tick clock => ?_
      · simp only [Blanks.none, List.nil_append, List.length_append, List.length_cons]
        omega
      · simp only [skipWithin, gap.dropBlank]
        rfl
    exact hcomma.trans (hmember.trans (ih hkeys.2 h.2 m.value.behind))

/-- What is inside an array is passed over, with the bracket that closes it. -/
theorem leads_array {items : List Spaced} (hvalues : ∀ item ∈ items, IsValue item.text)
    (h : ∀ item ∈ items, IsPassed item.text)
    (gap : Blanks) (rest : List UInt8) (outer : List Bracket) :
    Leads ⟨.firstItem, .array :: outer, arrayInside gap items rest⟩ ⟨.next, outer, rest⟩ := by
  cases items with
  | nil =>
    refine .of_step ?_ fun tick clock => ?_
    · simp only [arrayInside_nil, List.length_append, List.length_cons]
      omega
    · simp only [arrayInside_nil, skipWithin, gap.dropBlank]
      rfl
  | cons item items =>
    rw [List.forall_mem_cons] at h hvalues
    have hbehind := delimited_itemsBehind item.behind items rest
    have hitem := h.1 (gap.append item.before) (.array :: outer) hbehind
    rw [arrayInside_cons, Spaced.append_bytes]
    exact (Leads.of_firstItem hvalues.1 _).trans
      (hitem.trans (leads_items h.2 item.behind rest outer))

/-- What is inside an object is passed over, with the bracket that closes it. -/
theorem leads_object {members : List Member} (hkeys : ∀ m ∈ members, IsStringBody m.key.text)
    (h : ∀ m ∈ members, IsPassed m.value.text)
    (gap : Blanks) (rest : List UInt8) (outer : List Bracket) :
    Leads ⟨.firstKey, .object :: outer, objectInside gap members rest⟩ ⟨.next, outer, rest⟩ := by
  cases members with
  | nil =>
    refine .of_step ?_ fun tick clock => ?_
    · simp only [objectInside_nil, List.length_append, List.length_cons]
      omega
    · simp only [objectInside_nil, skipWithin, gap.dropBlank]
      rfl
  | cons m members =>
    rw [List.forall_mem_cons] at h hkeys
    have hbehind := delimited_membersBehind m.value.behind members rest
    have hmember := leads_member hkeys.1 h.1 gap hbehind (.object :: outer)
    rw [objectInside_cons]
    exact (Leads.of_firstKey m gap _ _).trans
      (hmember.trans (leads_members hkeys.2 h.2 m.value.behind rest outer))

/-! ## Passing over whole values -/

theorem skipFront_quote (outer : List Bracket) (bytes : List UInt8) :
    skipFront outer ('"'.toUInt8 :: bytes) = (skipString bytes).map (Expecting.next, outer, ·) := by
  have harray : '"'.toUInt8 ≠ '['.toUInt8 := by decide
  have hobject : '"'.toUInt8 ≠ '\x7b'.toUInt8 := by decide
  have hnull : '"'.toUInt8 ≠ 'n'.toUInt8 := by decide
  have htrue : '"'.toUInt8 ≠ 't'.toUInt8 := by decide
  have hfalse : '"'.toUInt8 ≠ 'f'.toUInt8 := by decide
  have hminus : '"'.toUInt8 ≠ '-'.toUInt8 := by decide
  have hdigit : isDigit '"'.toUInt8 ≠ true := by decide
  rw [skipFront, dropBlank_cons (by decide)]
  simp only [if_neg harray, if_neg hobject, if_neg hnull, if_neg htrue, if_neg hfalse,
    if_neg hminus, if_neg hdigit, if_true]
  cases skipString bytes <;> rfl

theorem skipFront_minus (outer : List Bracket) (bytes : List UInt8) :
    skipFront outer ('-'.toUInt8 :: bytes) = (skipNumber bytes).map (Expecting.next, outer, ·) := by
  have harray : '-'.toUInt8 ≠ '['.toUInt8 := by decide
  have hobject : '-'.toUInt8 ≠ '\x7b'.toUInt8 := by decide
  have hnull : '-'.toUInt8 ≠ 'n'.toUInt8 := by decide
  have htrue : '-'.toUInt8 ≠ 't'.toUInt8 := by decide
  have hfalse : '-'.toUInt8 ≠ 'f'.toUInt8 := by decide
  rw [skipFront, dropBlank_cons (by decide)]
  simp only [if_neg harray, if_neg hobject, if_neg hnull, if_neg htrue, if_neg hfalse, if_true]
  cases skipNumber bytes <;> rfl

theorem skipFront_digit {b : UInt8} (h : isDigit b = true) (outer : List Bracket)
    (bytes : List UInt8) :
    skipFront outer (b :: bytes) = (skipNumber (b :: bytes)).map (Expecting.next, outer, ·) := by
  have hne : ∀ d, isDigit d = false → b ≠ d := fun d hd => ne_of_isDigit h hd
  simp only [skipFront, dropBlank_cons (isBlank_of_isDigit h), if_neg (hne '['.toUInt8 (by decide)),
    if_neg (hne '\x7b'.toUInt8 (by decide)), if_neg (hne 'n'.toUInt8 (by decide)),
    if_neg (hne 't'.toUInt8 (by decide)), if_neg (hne 'f'.toUInt8 (by decide)),
    if_neg (hne '-'.toUInt8 (by decide)), h, if_true]
  cases skipNumber (b :: bytes) <;> rfl

/-- From the front of a value the pass comes right behind it. -/
theorem IsValue.isPassed {text : List UInt8} (h : IsValue text) : IsPassed text := by
  -- the induction is on the grammar: a bracket is put on top of those that are open already
  induction h with
  | nullWord => exact fun gap _ _ _ => .of_skipFront gap (by simp [wordText]; omega) rfl
  | trueWord => exact fun gap _ _ _ => .of_skipFront gap (by simp [wordText]; omega) rfl
  | falseWord => exact fun gap _ _ _ => .of_skipFront gap (by simp [wordText]; omega) rfl
  | unsigned h =>
    intro gap outer rest hrest
    have hread := skipNumber_append h hrest
    obtain ⟨b, tail, rfl, hb⟩ := h.exists_cons
    refine .of_skipFront gap (by simp only [List.length_append, List.length_cons]; omega) ?_
    rw [List.cons_append, skipFront_digit hb, ← List.cons_append, hread]
    rfl
  | negative h =>
    intro gap outer rest hrest
    refine .of_skipFront gap (by simp only [List.length_append, List.length_cons]; omega) ?_
    rw [List.cons_append, skipFront_minus, skipNumber_append h hrest]
    rfl
  | string h =>
    intro gap outer rest _
    refine .of_skipFront gap (by simp only [List.length_append, List.length_cons]; omega) ?_
    rw [List.cons_append, List.append_assoc, List.singleton_append, skipFront_quote,
      skipString_body h]
    rfl
  | array gap' h ih =>
    intro gap outer rest _
    rw [arrayText_append]
    exact (Leads.of_skipFront gap (by simp) rfl).trans (leads_array h ih gap' rest outer)
  | object gap' hkeys _ ih =>
    intro gap outer rest _
    rw [objectText_append]
    exact (Leads.of_skipFront gap (by simp) rfl).trans (leads_object hkeys ih gap' rest outer)

/-- Passing over a value ends right behind it. -/
theorem skip_value {text : List UInt8} (h : IsValue text) (gap : Blanks) {rest : List UInt8}
    (hrest : Delimited rest) : skip (gap.val ++ (text ++ rest)) = .ok rest := by
  -- the pass starts with a clock of one tick for each byte and one more
  obtain ⟨clock, hclock, hskip⟩ := h.isPassed gap [] hrest (0 :: (gap.val ++ (text ++ rest)))
    (Nat.lt_succ_self _)
  rw [skip, hskip]
  cases clock with
  | nil => exact absurd hclock (Nat.not_lt_zero _)
  | cons tick clock => rfl

end SearchGateway.Json
