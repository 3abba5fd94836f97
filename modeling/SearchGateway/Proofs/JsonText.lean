/-
  SearchGateway.Proofs.JsonText

  The grammar of JSON texts, with the blanks that may stand between the parts.  A value may hold any
  escapes and numbers of any size, and may be nested to any depth.
-/
import SearchGateway.Json.Skip
import SearchGateway.Proofs.Reading

namespace SearchGateway.Json

/-! ## Blanks -/

/-- Any number of blanks. -/
abbrev Blanks := { bytes : List UInt8 // ∀ b ∈ bytes, isBlank b = true }

namespace Blanks

/-- No blanks. -/
def none : Blanks :=
  ⟨[], fun _ hb => absurd hb List.not_mem_nil⟩

/-- Blanks behind blanks. -/
def append (first second : Blanks) : Blanks :=
  ⟨first.val ++ second.val, fun b hb =>
    (List.mem_append.mp hb).elim (first.property b) (second.property b)⟩

theorem dropBlank (gap : Blanks) (bytes : List UInt8) :
    Json.dropBlank (gap.val ++ bytes) = Json.dropBlank bytes :=
  List.dropWhile_append_of_pos gap.property

theorem isBlank_continuesNumber {b : UInt8} (h : isBlank b = true) :
    continuesNumber b = false := by
  simp only [isBlank, Bool.or_eq_true, beq_iff_eq] at h
  rcases h with ((rfl | rfl) | rfl) | rfl <;> decide

/-- Blanks do not go on with a number. -/
theorem delimited (gap : Blanks) {rest : List UInt8} (h : Delimited rest) :
    Delimited (gap.val ++ rest) := by
  obtain ⟨bytes, hbytes⟩ := gap
  cases bytes with
  | nil => exact h
  | cons b bytes => exact delimited_cons.mpr (isBlank_continuesNumber (hbytes b List.mem_cons_self))

end Blanks

/-! ## Strings and numbers -/

/-- What may stand between the quotes of a string.  An escape may write half of a surrogate pair. -/
inductive IsStringBody : List UInt8 → Prop
  | nil : IsStringBody []
  | plain {b : UInt8} {body : List UInt8} (hquote : b ≠ '"'.toUInt8) (hslash : b ≠ '\\'.toUInt8)
      (hcontrol : 0x20 ≤ b) (hbody : IsStringBody body) : IsStringBody (b :: body)
  | short {letter : UInt8} {body : List UInt8} (hletter : (shortEscape? letter).isSome)
      (hbody : IsStringBody body) : IsStringBody ('\\'.toUInt8 :: letter :: body)
  | unit {h₁ h₂ h₃ h₄ : UInt8} {body : List UInt8} (hunit : (codeUnit? h₁ h₂ h₃ h₄).isSome)
      (hbody : IsStringBody body) :
      IsStringBody ('\\'.toUInt8 :: 'u'.toUInt8 :: h₁ :: h₂ :: h₃ :: h₄ :: body)

/-- One or more decimal digits. -/
structure IsDigits (digits : List UInt8) : Prop where
  ne : digits ≠ []
  all : ∀ b ∈ digits, isDigit b = true

/-- The digits of a number before its point; a zero in front stands alone. -/
structure IsWhole (digits : List UInt8) : Prop extends IsDigits digits where
  no_leading_zero : digits.head? = some '0'.toUInt8 → digits = ['0'.toUInt8]

/-- The fraction of a number, where there is one. -/
inductive IsFraction : List UInt8 → Prop
  | absent : IsFraction []
  | present {digits : List UInt8} (h : IsDigits digits) : IsFraction ('.'.toUInt8 :: digits)

/-- The sign of an exponent, where there is one. -/
inductive IsSign : List UInt8 → Prop
  | absent : IsSign []
  | plus : IsSign ['+'.toUInt8]
  | minus : IsSign ['-'.toUInt8]

/-- The exponent of a number, where there is one. -/
inductive IsExponent : List UInt8 → Prop
  | absent : IsExponent []
  | present {mark : UInt8} {sign digits : List UInt8}
      (hmark : mark = 'e'.toUInt8 ∨ mark = 'E'.toUInt8) (hsign : IsSign sign)
      (h : IsDigits digits) : IsExponent (mark :: (sign ++ digits))

/-- A number behind its sign. -/
inductive IsUnsigned : List UInt8 → Prop
  | mk {whole fraction exponent : List UInt8} (hwhole : IsWhole whole)
      (hfraction : IsFraction fraction) (hexponent : IsExponent exponent) :
      IsUnsigned (whole ++ (fraction ++ exponent))

/-! ## Values -/

/-- A part of a text with the blanks around it. -/
structure Spaced where
  before : Blanks
  text : List UInt8
  behind : Blanks

/-- A member of an object: what stands between the quotes of its key, and its value. -/
structure Member where
  key : Spaced
  value : Spaced

/-- A part and its blanks as they are written. -/
def Spaced.bytes (part : Spaced) : List UInt8 :=
  part.before ++ (part.text ++ part.behind)

/-- A member as it is written behind the quote that opens its key. -/
def Member.opened (m : Member) : List UInt8 :=
  m.key.text ++ '"'.toUInt8 :: (m.key.behind ++ ':'.toUInt8 :: m.value.bytes)

/-- A member as it is written. -/
def Member.bytes (m : Member) : List UInt8 :=
  m.key.before ++ '"'.toUInt8 :: m.opened

/-- Texts with a comma between neighbours. -/
def commaJoined : List (List UInt8) → List UInt8
  | [] => []
  | text :: texts => text ++ texts.flatMap (','.toUInt8 :: ·)

/-- The text of an array; the gap stands in front of its first item, or alone. -/
def arrayText (gap : Blanks) (items : List Spaced) : List UInt8 :=
  '['.toUInt8 :: (gap ++ (commaJoined (items.map Spaced.bytes) ++ [']'.toUInt8]))

/-- The text of an object; the gap stands in front of its first member, or alone. -/
def objectText (gap : Blanks) (members : List Member) : List UInt8 :=
  '\x7b'.toUInt8 :: (gap ++ (commaJoined (members.map Member.bytes) ++ ['\x7d'.toUInt8]))

/-- A word of letters as it is written. -/
def wordText (word : String) : List UInt8 :=
  word.toList.map Char.toUInt8

/-- The text of a JSON value, without blanks around it. -/
inductive IsValue : List UInt8 → Prop
  | nullWord : IsValue (wordText "null")
  | trueWord : IsValue (wordText "true")
  | falseWord : IsValue (wordText "false")
  | unsigned {text : List UInt8} (h : IsUnsigned text) : IsValue text
  | negative {text : List UInt8} (h : IsUnsigned text) : IsValue ('-'.toUInt8 :: text)
  | string {body : List UInt8} (h : IsStringBody body) :
      IsValue ('"'.toUInt8 :: (body ++ ['"'.toUInt8]))
  | array (gap : Blanks) {items : List Spaced} (h : ∀ item ∈ items, IsValue item.text) :
      IsValue (arrayText gap items)
  | object (gap : Blanks) {members : List Member} (hkeys : ∀ m ∈ members, IsStringBody m.key.text)
      (h : ∀ m ∈ members, IsValue m.value.text) : IsValue (objectText gap members)

/-- A member as the grammar has it. -/
structure Member.WellFormed (m : Member) : Prop where
  key : IsStringBody m.key.text
  value : IsValue m.value.text

theorem IsValue.of_members (gap : Blanks) {members : List Member}
    (h : ∀ m ∈ members, m.WellFormed) : IsValue (objectText gap members) :=
  .object gap (fun m hm => (h m hm).key) fun m hm => (h m hm).value

/-! ## Runs of digits -/

/-- A text does not go on with a digit. -/
def PastDigits (rest : List UInt8) : Prop :=
  ∀ b ∈ rest.head?, isDigit b = false

theorem Delimited.pastDigits {rest : List UInt8} (h : Delimited rest) : PastDigits rest := by
  intro b hb
  have hcontinues := h b hb
  simp only [continuesNumber, Bool.or_eq_false_iff] at hcontinues
  exact hcontinues.1.1.1

theorem pastDigits_cons {b : UInt8} (h : isDigit b = false) (rest : List UInt8) :
    PastDigits (b :: rest) := by
  intro c hc
  obtain rfl : b = c := Option.some.inj hc
  exact h

theorem IsExponent.pastDigits {exponent rest : List UInt8} (h : IsExponent exponent)
    (hrest : Delimited rest) : PastDigits (exponent ++ rest) := by
  cases h with
  | absent => exact hrest.pastDigits
  | present hmark =>
    rcases hmark with rfl | rfl
    · exact pastDigits_cons (by decide) _
    · exact pastDigits_cons (by decide) _

theorem IsFraction.pastDigits {fraction exponent rest : List UInt8} (h : IsFraction fraction)
    (hexponent : IsExponent exponent) (hrest : Delimited rest) :
    PastDigits (fraction ++ (exponent ++ rest)) := by
  cases h with
  | absent => exact hexponent.pastDigits hrest
  | present => exact pastDigits_cons (by decide) _

theorem takeWhile_digits {digits rest : List UInt8} (h : ∀ b ∈ digits, isDigit b = true)
    (hrest : PastDigits rest) : (digits ++ rest).takeWhile isDigit = digits := by
  rw [List.takeWhile_append_of_pos h]
  cases rest with
  | nil => simp
  | cons b rest => simp [hrest b rfl]

theorem dropWhile_digits {digits rest : List UInt8} (h : ∀ b ∈ digits, isDigit b = true)
    (hrest : PastDigits rest) : (digits ++ rest).dropWhile isDigit = rest := by
  rw [List.dropWhile_append_of_pos h]
  cases rest with
  | nil => rfl
  | cons b rest => simp [hrest b rfl]

theorem IsDigits.exists_cons {digits : List UInt8} (h : IsDigits digits) :
    ∃ b tail, digits = b :: tail ∧ isDigit b = true ∧ ∀ c ∈ tail, isDigit c = true := by
  obtain ⟨b, tail, rfl⟩ := List.exists_cons_of_ne_nil h.ne
  exact ⟨b, tail, rfl, List.forall_mem_cons.mp h.all⟩

/-! ## The parts of arrays and objects -/

/-- The first byte of a value is no blank and does not close an array. -/
theorem IsValue.exists_cons {text : List UInt8} (h : IsValue text) :
    ∃ b tail, text = b :: tail ∧ isBlank b = false ∧ b ≠ ']'.toUInt8 := by
  cases h with
  | nullWord => exact ⟨_, _, rfl, by decide, by decide⟩
  | trueWord => exact ⟨_, _, rfl, by decide, by decide⟩
  | falseWord => exact ⟨_, _, rfl, by decide, by decide⟩
  | unsigned h =>
    obtain ⟨hwhole, -, -⟩ := h
    obtain ⟨b, tail, rfl, hb, -⟩ := hwhole.toIsDigits.exists_cons
    exact ⟨b, _, rfl, isBlank_of_isDigit hb, ne_of_isDigit hb (by decide)⟩
  | negative => exact ⟨_, _, rfl, by decide, by decide⟩
  | string => exact ⟨_, _, rfl, by decide, by decide⟩
  | array => exact ⟨_, _, rfl, by decide, by decide⟩
  | object => exact ⟨_, _, rfl, by decide, by decide⟩

/-- What stands behind an item of an array: the other items and the closing bracket. -/
def itemsBehind (items : List Spaced) (rest : List UInt8) : List UInt8 :=
  (items.map Spaced.bytes).flatMap (','.toUInt8 :: ·) ++ ']'.toUInt8 :: rest

theorem itemsBehind_nil (rest : List UInt8) : itemsBehind [] rest = ']'.toUInt8 :: rest := rfl

theorem itemsBehind_cons (item : Spaced) (items : List Spaced) (rest : List UInt8) :
    itemsBehind (item :: items) rest = ','.toUInt8 :: (item.bytes ++ itemsBehind items rest) := by
  simp [itemsBehind]

/-- What stands behind a member of an object: the other members and the closing bracket. -/
def membersBehind (members : List Member) (rest : List UInt8) : List UInt8 :=
  (members.map Member.bytes).flatMap (','.toUInt8 :: ·) ++ '\x7d'.toUInt8 :: rest

theorem membersBehind_nil (rest : List UInt8) :
    membersBehind [] rest = '\x7d'.toUInt8 :: rest := rfl

theorem membersBehind_cons (m : Member) (ms : List Member) (rest : List UInt8) :
    membersBehind (m :: ms) rest = ','.toUInt8 :: (m.bytes ++ membersBehind ms rest) := by
  simp [membersBehind]

theorem delimited_itemsBehind (gap : Blanks) (items : List Spaced) (rest : List UInt8) :
    Delimited (gap.val ++ itemsBehind items rest) := by
  apply gap.delimited
  cases items with
  | nil => exact delimited_bracket rest
  | cons item items => exact itemsBehind_cons item items rest ▸ delimited_comma _

theorem delimited_membersBehind (gap : Blanks) (members : List Member) (rest : List UInt8) :
    Delimited (gap.val ++ membersBehind members rest) := by
  apply gap.delimited
  cases members with
  | nil => exact delimited_brace rest
  | cons m members => exact membersBehind_cons m members rest ▸ delimited_comma _

/-- What stands behind the opening bracket of an array. -/
def arrayInside (gap : Blanks) (items : List Spaced) (rest : List UInt8) : List UInt8 :=
  gap.val ++ (commaJoined (items.map Spaced.bytes) ++ ']'.toUInt8 :: rest)

theorem arrayInside_nil (gap : Blanks) (rest : List UInt8) :
    arrayInside gap [] rest = gap.val ++ ']'.toUInt8 :: rest := rfl

theorem arrayInside_cons (gap : Blanks) (item : Spaced) (items : List Spaced) (rest : List UInt8) :
    arrayInside gap (item :: items) rest = gap.val ++ (item.bytes ++ itemsBehind items rest) := by
  rw [arrayInside, List.map_cons, commaJoined, List.append_assoc, itemsBehind]

theorem arrayText_append (gap : Blanks) (items : List Spaced) (rest : List UInt8) :
    arrayText gap items ++ rest = '['.toUInt8 :: arrayInside gap items rest := by
  simp [arrayText, arrayInside]

/-- What stands behind the opening bracket of an object. -/
def objectInside (gap : Blanks) (members : List Member) (rest : List UInt8) : List UInt8 :=
  gap.val ++ (commaJoined (members.map Member.bytes) ++ '\x7d'.toUInt8 :: rest)

theorem objectInside_nil (gap : Blanks) (rest : List UInt8) :
    objectInside gap [] rest = gap.val ++ '\x7d'.toUInt8 :: rest := rfl

theorem objectInside_cons (gap : Blanks) (m : Member) (ms : List Member) (rest : List UInt8) :
    objectInside gap (m :: ms) rest = gap.val ++ (m.bytes ++ membersBehind ms rest) := by
  rw [objectInside, List.map_cons, commaJoined, List.append_assoc, membersBehind]

theorem objectText_append (gap : Blanks) (members : List Member) (rest : List UInt8) :
    objectText gap members ++ rest = '\x7b'.toUInt8 :: objectInside gap members rest := by
  simp [objectText, objectInside]

theorem length_lt_itemsBehind (items : List Spaced) (rest : List UInt8) :
    items.length < (itemsBehind items rest).length := by
  induction items with
  | nil => exact Nat.succ_pos _
  | cons item items ih =>
    rw [itemsBehind_cons, List.length_cons, List.length_cons, List.length_append]
    omega

theorem length_lt_membersBehind (ms : List Member) (rest : List UInt8) :
    ms.length < (membersBehind ms rest).length := by
  induction ms with
  | nil => exact Nat.succ_pos _
  | cons m ms ih =>
    rw [membersBehind_cons, List.length_cons, List.length_cons, List.length_append]
    omega

/-- An array has at least as many bytes as items. -/
theorem length_le_arrayInside (gap : Blanks) (items : List Spaced) (rest : List UInt8) :
    items.length ≤ (arrayInside gap items rest).length := by
  cases items with
  | nil => exact Nat.zero_le _
  | cons item items =>
    have hothers := length_lt_itemsBehind items rest
    rw [arrayInside_cons, List.length_append, List.length_append, List.length_cons]
    omega

/-- An object has at least as many bytes as members. -/
theorem length_le_objectInside (gap : Blanks) (ms : List Member) (rest : List UInt8) :
    ms.length ≤ (objectInside gap ms rest).length := by
  cases ms with
  | nil => exact Nat.zero_le _
  | cons m ms =>
    have hothers := length_lt_membersBehind ms rest
    rw [objectInside_cons, List.length_append, List.length_append, List.length_cons]
    omega

theorem Spaced.append_bytes (gap : Blanks) (part : Spaced) (rest : List UInt8) :
    gap.val ++ (part.bytes ++ rest) =
      (gap.append part.before).val ++ (part.text ++ (part.behind.val ++ rest)) := by
  simp [Spaced.bytes, Blanks.append]

theorem IsUnsigned.exists_cons {text : List UInt8} (h : IsUnsigned text) :
    ∃ b tail, text = b :: tail ∧ isDigit b = true := by
  obtain ⟨hwhole, -, -⟩ := h
  obtain ⟨b, tail, rfl, hb, -⟩ := hwhole.toIsDigits.exists_cons
  exact ⟨b, _, rfl, hb⟩

/-- Behind the blanks in front of a member its key is opened. -/
theorem Member.dropBlank_bytes (gap : Blanks) (m : Member) (rest : List UInt8) :
    dropBlank (gap.val ++ (m.bytes ++ rest)) = '"'.toUInt8 :: (m.opened ++ rest) := by
  rw [gap.dropBlank, Member.bytes, List.append_assoc, m.key.before.dropBlank]
  rfl

theorem Member.opened_append (m : Member) (rest : List UInt8) :
    m.opened ++ rest = m.key.text ++
      '"'.toUInt8 :: (m.key.behind.val ++ ':'.toUInt8 :: (m.value.bytes ++ rest)) := by
  simp [Member.opened]

theorem colon_gap (gap : Blanks) (rest : List UInt8) :
    colon (gap.val ++ ':'.toUInt8 :: rest) = .ok rest := by
  rw [colon, gap.dropBlank]
  rfl

end SearchGateway.Json
