/-
  SearchGateway.Proofs.Reading

  Reading back what is written.  `Reads reader v x` says that a reader takes the
  text of a value for `x` and leaves what stands behind it.  The statements follow
  the typed readers: scalars, optional values, lists, and records.  A record may
  list its members in any order, because the setters of different fields do not
  disturb each other.
-/
import SearchGateway.Json.Typed
import SearchGateway.Proofs.Lexeme
import Mathlib.Data.List.Perm.Basic

namespace SearchGateway

/-- Changing the errors of a result makes no result of an error. -/
theorem eq_ok_of_mapError {α ε ε' : Type} {f : ε → ε'} {x : Except ε α} {a : α}
    (h : x.mapError f = .ok a) : x = .ok a := by
  cases x with
  | error e => exact nomatch h
  | ok b => exact congrArg _ (Except.ok.inj h)

/-- A changed error was one before. -/
theorem exists_error_of_mapError {α ε ε' : Type} {f : ε → ε'} {x : Except ε α} {e' : ε'}
    (h : x.mapError f = .error e') : ∃ e, x = .error e ∧ f e = e' := by
  cases x with
  | error e => exact ⟨e, rfl, Except.error.inj h⟩
  | ok b => exact nomatch h

end SearchGateway

namespace SearchGateway.Json

open SearchGateway.Text.Utf8

/-! ## The front of a written value -/

/-- A character that can open a written value. -/
def opensValue (c : Char) : Bool :=
  c.isDigit || c == '-' || c == '"' || c == '[' || c == '\x7b' || c == 'n' || c == 't' || c == 'f'

theorem opensValue_of_isDigit {c : Char} (h : c.isDigit = true) : opensValue c = true := by
  simp [opensValue, h]

/-- Digits laid out as a number begin with a digit. -/
theorem head_layOut (l : Double.Layout) {d : Char} (hd : d.isDigit = true) (digits : List Char)
    (exponent : Int) :
    ∃ c cs, Double.layOut l (d :: digits) exponent = c :: cs ∧ c.isDigit = true := by
  unfold Double.layOut
  simp only
  split
  · split
    · exact ⟨_, _, rfl, hd⟩
    split
    · rename_i hpoint
      obtain ⟨n, hn⟩ : ∃ n, (((d :: digits).length : Int) + exponent).toNat = n + 1 :=
        ⟨_, (Nat.succ_pred_eq_of_pos (by omega)).symm⟩
      rw [hn, List.take_succ_cons]
      exact ⟨_, _, rfl, hd⟩
    · exact ⟨_, _, rfl, by decide⟩
  · cases digits with
    | nil => exact ⟨_, _, rfl, hd⟩
    | cons d' digits => exact ⟨_, _, rfl, hd⟩

/-- Written numbers begin with a digit or a minus sign. -/
theorem head_numberText (n : Number) :
    ∃ c cs, n.text = c :: cs ∧ (c.isDigit = true ∨ c = '-') := by
  cases n with
  | int n =>
    obtain ⟨c, cs, hcs, hc⟩ := head_toDigits n.natAbs
    simp only [Number.text, intText]
    split
    · exact ⟨_, _, rfl, .inr rfl⟩
    · exact ⟨c, cs, hcs, .inl hc⟩
  | double x =>
    obtain ⟨d, digits, hdigits, hd⟩ := head_toDigits x.shortest.1
    obtain ⟨c, cs, hcs, hc⟩ := head_layOut Double.layout hd digits x.shortest.2
    simp only [Number.text, Double.text, hdigits, hcs]
    split <;> split
    · exact ⟨_, _, rfl, .inr rfl⟩
    · exact ⟨_, _, rfl, .inl (by decide)⟩
    · exact ⟨_, _, rfl, .inr rfl⟩
    · exact ⟨_, _, rfl, .inl hc⟩

/-- A written value begins with a character that opens a value. -/
theorem head_valueText (v : Value) : ∃ c cs, v.text = c :: cs ∧ opensValue c = true := by
  cases v with
  | null => exact ⟨_, _, rfl, by decide⟩
  | bool b => cases b <;> exact ⟨_, _, rfl, by decide⟩
  | number n =>
    obtain ⟨c, cs, hcs, hc | rfl⟩ := head_numberText n
    · exact ⟨c, cs, hcs, opensValue_of_isDigit hc⟩
    · exact ⟨_, cs, hcs, by decide⟩
  | string s => exact ⟨_, _, rfl, by decide⟩
  | array items => exact ⟨_, _, rfl, by decide⟩
  | object ms => exact ⟨_, _, rfl, by decide⟩

theorem toNat_lt_of_opensValue {c : Char} (h : opensValue c = true) : c.toNat < 256 := by
  by_cases hdigit : c.isDigit = true
  · exact toNat_lt_of_isDigit hdigit
  · simp only [opensValue, hdigit, Bool.false_or, Bool.or_eq_true, beq_iff_eq] at h
    rcases h with (((((rfl | rfl) | rfl) | rfl) | rfl) | rfl) | rfl <;> decide

/-- The byte of a character that opens a value is no blank and closes nothing. -/
theorem byte_of_opensValue {c : Char} (h : opensValue c = true) :
    encodeChar c = [c.toUInt8] ∧ isBlank c.toUInt8 = false ∧ c.toUInt8 ≠ ']'.toUInt8 := by
  by_cases hdigit : c.isDigit = true
  · have hbyte := isDigit_toUInt8 hdigit
    exact ⟨encodeChar_digit hdigit, isBlank_of_isDigit hbyte, ne_of_isDigit hbyte (by decide)⟩
  · simp only [opensValue, hdigit, Bool.false_or, Bool.or_eq_true, beq_iff_eq] at h
    rcases h with (((((rfl | rfl) | rfl) | rfl) | rfl) | rfl) | rfl <;>
      exact ⟨rfl, by decide, by decide⟩

/-- The bytes of a written value, with a first byte that is no blank and closes nothing. -/
theorem encode_valueText (v : Value) :
    ∃ b bytes, encode v.text = b :: bytes ∧ isBlank b = false ∧ b ≠ ']'.toUInt8 := by
  obtain ⟨c, cs, hcs, hc⟩ := head_valueText v
  obtain ⟨hbyte, hblank, hclose⟩ := byte_of_opensValue hc
  exact ⟨c.toUInt8, encode cs, by rw [hcs, encode_cons, hbyte]; rfl, hblank, hclose⟩

/-! ## Readers of written values -/

/-- A reader takes the text of a value for `x` and leaves what stands behind it. -/
def Reads {α : Type} (reader : Reader α) (v : Value) (x : α) : Prop :=
  ∀ rest, Delimited rest → reader (encode v.text ++ rest) = .ok (x, rest)

variable {α β σ : Type}

/-- A text that holds just a written value is read. -/
theorem read_print {reader : Nat → Reader α} {v : Value} {x : α}
    (h : Reads (reader maxDepth) v x) : read reader (ofString v.print) = .ok x := by
  have hread := h [] delimited_nil
  rw [List.append_nil] at hread
  simp only [read, ofString, Value.print, String.toList_ofList, hread]
  rfl

theorem encode_stringText (s : String) (rest : List UInt8) :
    encode (stringText s) ++ rest
      = '"'.toUInt8 :: (encode (s.toList.flatMap escapeChar) ++ '"'.toUInt8 :: rest) := by
  simp only [stringText, encode_cons, encode_append, encode_nil,
    encodeChar_ascii (c := '"') (by decide), List.append_nil, List.cons_append, List.nil_append,
    List.append_assoc]

theorem front_string (s : String) (rest : List UInt8) :
    front (encode (Value.string s).text ++ rest) = .ok (Found.string s, rest) := by
  rw [Value.text, encode_stringText, front_quote, stringRest_escaped]
  rfl

/-- A written text is read as the text. -/
theorem reads_string (s : String) : Reads string (.string s) s := by
  intro rest _
  rw [string, front_string]

/-- No other value is written with the first letter of `null`. -/
theorem head?_text_ne_n {v : Value} (h : v ≠ .null) : v.text.head? ≠ some 'n' := by
  cases v with
  | null => exact absurd rfl h
  | bool b => cases b <;> decide
  | number n =>
    obtain ⟨c, cs, hcs, hc⟩ := head_numberText n
    rw [Value.text, hcs, List.head?_cons]
    rintro ⟨⟩
    exact absurd hc (by decide)
  | string s => simp [Value.text, stringText]
  | array items => simp [Value.text]
  | object ms => simp [Value.text]

theorem head?_string (s : String) : (Value.string s).text.head? ≠ some 'n' :=
  head?_text_ne_n nofun

theorem head?_array (vs : List Value) : (Value.array vs).text.head? ≠ some 'n' :=
  head?_text_ne_n nofun

/-- A written integer in the range is read as the integer. -/
theorem reads_integer {low high n : Int} (expected : String) (hlow : low ≤ n) (hhigh : n ≤ high)
    (hmin : -0x8000000000000000 ≤ n) (hmax : n < 0x10000000000000000) :
    Reads (integer low high expected) (.ofInt n) n := by
  intro rest hrest
  have hfront : front (encode (Value.ofInt n).text ++ rest) = .ok (Found.number (.int n), rest) :=
    front_intText hmin hmax hrest
  simp only [integer, hfront, if_pos (And.intro hlow hhigh)]

/-- The integers of 64 bits with a sign. -/
def IsInt64 (n : Int) : Prop :=
  -0x8000000000000000 ≤ n ∧ n < 0x8000000000000000

instance (n : Int) : Decidable (IsInt64 n) :=
  inferInstanceAs (Decidable (_ ∧ _))

/-- A written integer of 64 bits is read as the integer. -/
theorem reads_int64 {n : Int} (h : IsInt64 n) : Reads int64 (.ofInt n) n :=
  reads_integer "i64" h.1 (Int.le_sub_one_of_lt h.2) h.1 (Int.lt_trans h.2 (by decide))

/-- A written natural number of at most 64 bits is read as the number. -/
theorem reads_natural {width n : Nat} (expected : String) (hn : n < Nat.pow 2 width)
    (hwidth : width ≤ 64) : Reads (natural width expected) (.ofNat n) n := by
  have hpow : Nat.pow 2 width ≤ Nat.pow 2 64 := Nat.pow_le_pow_right (by decide) hwidth
  have hmax : (n : Int) < 0x10000000000000000 :=
    Int.ofNat_lt.mpr (Nat.lt_of_lt_of_le hn hpow)
  have hread : Reads (integer 0 (Nat.pow 2 width - 1 : Nat) expected) (.ofInt n) n :=
    reads_integer expected (Int.natCast_nonneg n) (Int.ofNat_le.mpr (Nat.le_sub_one_of_lt hn))
      (by omega) hmax
  intro rest hrest
  have hinteger := hread rest hrest
  rw [natural]
  exact (congrArg (Except.map _) hinteger).trans rfl

/-- A value that does not begin like `null` is read as being there. -/
theorem Reads.optional {reader : Reader α} {v : Value} {x : α} (h : Reads reader v x)
    (hnull : v.text.head? ≠ some 'n') : Reads (optional reader) v (some x) := by
  intro rest hrest
  obtain ⟨c, cs, hcs, hc⟩ := head_valueText v
  obtain ⟨hbyte, hblank, -⟩ := byte_of_opensValue hc
  have hne : c.toUInt8 ≠ 'n'.toUInt8 := by
    rw [hcs, List.head?_cons] at hnull
    exact fun heq => hnull <| congrArg some <|
      eq_of_toUInt8_eq (toNat_lt_of_opensValue hc) (by decide) heq
  have hread := h rest hrest
  rw [hcs, encode_cons, hbyte, List.cons_append, List.nil_append, List.cons_append] at hread ⊢
  simp only [Json.optional, dropBlank_cons hblank, if_neg hne, hread]
  rfl

theorem Reads.converted {reader : Nat → Reader α} {convert : α → Except String β} {depth : Nat}
    {v : Value} {x : α} {y : β} (h : Reads (reader depth) v x) (hconvert : convert x = .ok y) :
    Reads (converted reader convert depth) v y := by
  intro rest hrest
  simp only [Json.converted, h rest hrest, hconvert]

/-! ## Arrays -/

theorem delimited_comma (rest : List UInt8) : Delimited (','.toUInt8 :: rest) :=
  delimited_cons.mpr (by decide)

theorem delimited_bracket (rest : List UInt8) : Delimited (']'.toUInt8 :: rest) :=
  delimited_cons.mpr (by decide)

theorem delimited_brace (rest : List UInt8) : Delimited ('\x7d'.toUInt8 :: rest) :=
  delimited_cons.mpr (by decide)

/-- What follows the first of some comma-separated texts and closes them is delimited. -/
theorem delimited_tail (texts : List (List Char)) {close : UInt8}
    (hclose : ∀ rest, Delimited (close :: rest)) (rest : List UInt8) :
    Delimited (encode (texts.flatMap (',' :: ·)) ++ close :: rest) := by
  cases texts with
  | nil => exact hclose rest
  | cons text texts => exact delimited_comma _

theorem encode_tail_cons (text : List Char) (texts : List (List Char)) (rest : List UInt8) :
    encode ((text :: texts).flatMap (',' :: ·)) ++ rest
      = ','.toUInt8 :: (encode text ++ (encode (texts.flatMap (',' :: ·)) ++ rest)) := by
  simp only [List.flatMap_cons, List.cons_append, encode_cons, encode_append,
    encodeChar_ascii (c := ',') (by decide), List.nil_append, List.append_assoc]

theorem itemAhead_close (first : Bool) (rest : List UInt8) :
    itemAhead first (']'.toUInt8 :: rest) = .ok (.closed rest) := rfl

/-- The first item of an array comes right after its bracket. -/
theorem itemAhead_first (v : Value) (rest : List UInt8) :
    itemAhead true (encode v.text ++ rest) = .ok (.item (encode v.text ++ rest)) := by
  obtain ⟨b, bytes, hbytes, hblank, hclose⟩ := encode_valueText v
  simp only [hbytes, List.cons_append, itemAhead, dropBlank_cons hblank, if_neg hclose, if_true]

/-- Any later item comes after a comma. -/
theorem itemAhead_next (v : Value) (rest : List UInt8) :
    itemAhead false (','.toUInt8 :: (encode v.text ++ rest))
      = .ok (.item (encode v.text ++ rest)) := by
  obtain ⟨b, bytes, hbytes, hblank, hclose⟩ := encode_valueText v
  have hcomma : ','.toUInt8 ≠ ']'.toUInt8 := by decide
  simp only [hbytes, List.cons_append, itemAhead, dropBlank_cons (b := ','.toUInt8) (by decide),
    if_neg hcomma, dropBlank_cons hblank, if_neg hclose, if_true, Bool.false_eq_true, if_false]

/-- The items after the first, up to the closing bracket. -/
theorem items_tail {item : Reader α} {vs : List Value} {xs : List α}
    (h : List.Forall₂ (Reads item) vs xs) {clock : List UInt8} (hclock : vs.length < clock.length)
    (taken : List α) {index : Nat} (hindex : index ≠ 0) (rest : List UInt8) :
    items item clock taken index
        (encode ((itemTexts vs).flatMap (',' :: ·)) ++ ']'.toUInt8 :: rest)
      = .ok (taken.reverse ++ xs, rest) := by
  induction h generalizing clock taken index with
  | nil =>
    cases clock with
    | nil => simp at hclock
    | cons tick clock =>
      simp only [itemTexts, List.flatMap_nil, encode_nil, List.nil_append, items, itemAhead_close,
        List.append_nil]
  | @cons v x vs xs hv hvs ih =>
    cases clock with
    | nil => simp at hclock
    | cons tick clock =>
      -- the comma or bracket behind the item is what keeps a number from running on
      have hread := hv _ (delimited_tail (itemTexts vs) delimited_bracket rest)
      have hlater : decide (index = 0) = false := decide_eq_false hindex
      rw [itemTexts, encode_tail_cons]
      simp only [items, hlater, itemAhead_next, hread, under, Except.mapError]
      rw [ih (by simpa using hclock) (x :: taken) (Nat.succ_ne_zero index), List.reverse_cons,
        List.append_assoc, List.singleton_append]

theorem length_itemTexts (vs : List Value) : (itemTexts vs).length = vs.length := by
  induction vs with
  | nil => rfl
  | cons v vs ih => rw [itemTexts, List.length_cons, ih, List.length_cons]

/-- Comma-separated texts and what closes them take more bytes than there are texts. -/
theorem length_lt_tail (texts : List (List Char)) (close : UInt8) (rest : List UInt8) :
    texts.length < (encode (texts.flatMap (',' :: ·)) ++ close :: rest).length := by
  induction texts with
  | nil => exact Nat.succ_pos _
  | cons text texts ih =>
    rw [encode_tail_cons, List.length_cons, List.length_cons, List.length_append]
    omega

/-- The items of a written array are read. -/
theorem arrayRest_text {item : Reader α} {vs : List Value} {xs : List α}
    (h : List.Forall₂ (Reads item) vs xs) (rest : List UInt8) :
    arrayRest item (encode (commaSeparated (itemTexts vs) ++ [']']) ++ rest) = .ok (xs, rest) := by
  have hclose : encode [']'] = [']'.toUInt8] := rfl
  cases h with
  | nil => rfl
  | @cons v x vs xs hv hvs =>
    have hread := hv _ (delimited_tail (itemTexts vs) delimited_bracket rest)
    -- the clock is the text itself, which is longer than the list of its items
    have hclock := length_lt_tail (itemTexts vs) ']'.toUInt8 rest
    rw [length_itemTexts] at hclock
    simp only [itemTexts, commaSeparated, encode_append, hclose, List.append_assoc,
      List.singleton_append, arrayRest, items, decide_true, itemAhead_first, hread, under,
      Except.mapError]
    rw [items_tail hvs (by rw [List.length_append]; omega) [x] (Nat.succ_ne_zero 0)]
    rfl

theorem front_array (vs : List Value) (rest : List UInt8) :
    front (encode (Value.array vs).text ++ rest)
      = .ok (Found.sequence, encode (commaSeparated (itemTexts vs) ++ [']']) ++ rest) := by
  rw [Value.text, encode_cons, encodeChar_ascii (by decide), List.append_assoc,
    List.singleton_append, front_bracket]

/-- A written array is read as a list when each of its items is read. -/
theorem Reads.list {item : Nat → Reader α} {depth : Nat} {vs : List Value} {xs : List α}
    (h : List.Forall₂ (Reads (item depth)) vs xs) :
    Reads (list item (depth + 1)) (.array vs) xs := by
  intro rest _
  simp only [Json.list, front_array, nested, arrayRest_text h]

/-- A list of texts is read. -/
theorem reads_strings (depth : Nat) (texts : List String) :
    Reads (Json.list (fun _ => string) (depth + 1)) (.array (texts.map .string)) texts := by
  refine Reads.list ?_
  rw [List.forall₂_map_left_iff, List.forall₂_same]
  exact fun s _ => reads_string s

/-! ## Records -/

/-- A field of the record reads a member of an object, and this is what it sets. -/
def Shape.Sets (shape : Shape σ) (depth : Nat) (member : String × Value) (set : σ → σ) : Prop :=
  ∃ field, shape.field? member.1 = some field ∧ Reads (field.read depth) member.2 set

/-- A field that may be left out sets what is read. -/
theorem Shape.sets_optional {shape : Shape σ} {depth : Nat} {name : String}
    (read : Nat → Reader α) (set : α → σ → σ) {v : Value} {x : α}
    (hfield : shape.field? name = some (.optional name read set)) (h : Reads (read depth) v x) :
    shape.Sets depth (name, v) (set x) := by
  refine ⟨_, hfield, fun rest hrest => ?_⟩
  simp only [Field.optional, h rest hrest, Except.map]

/-- A field that has to be there sets what is read. -/
theorem Shape.sets_mandatory {shape : Shape σ} {depth : Nat} {name : String}
    (read : Nat → Reader α) (set : α → σ → σ) {v : Value} {x : α}
    (hfield : shape.field? name = some (.mandatory name read set)) (h : Reads (read depth) v x) :
    shape.Sets depth (name, v) (set x) := by
  refine ⟨_, hfield, fun rest hrest => ?_⟩
  simp only [Field.mandatory, h rest hrest, Except.map]

theorem keyAhead_close (first : Bool) (rest : List UInt8) :
    keyAhead first ('\x7d'.toUInt8 :: rest) = .ok (.closed rest) := rfl

/-- The key of the first member of an object comes right after its bracket. -/
theorem nextKey_first (key : String) (rest : List UInt8) :
    nextKey true (encode (stringText key) ++ rest) = .ok (.key key rest) := by
  have hahead : ∀ bytes, keyAhead true ('"'.toUInt8 :: bytes) = .ok (.item bytes) := fun _ => rfl
  simp only [encode_stringText, nextKey, hahead, stringRest_escaped]

/-- The key of any later member comes after a comma. -/
theorem nextKey_next (key : String) (rest : List UInt8) :
    nextKey false (','.toUInt8 :: (encode (stringText key) ++ rest)) = .ok (.key key rest) := by
  have hahead : ∀ bytes, keyAhead false (','.toUInt8 :: '"'.toUInt8 :: bytes)
      = .ok (.item bytes) := fun _ => rfl
  simp only [encode_stringText, nextKey, hahead, stringRest_escaped]

/-- The value of a member is read behind its colon. -/
theorem memberValue_text {reader : Reader α} {v : Value} {x : α} (h : Reads reader v x)
    (key : String) {rest : List UInt8} (hrest : Delimited rest) :
    memberValue key reader (':'.toUInt8 :: (encode v.text ++ rest)) = .ok (x, rest) := by
  have hcolon : ∀ bytes, colon (':'.toUInt8 :: bytes) = .ok bytes := fun _ => rfl
  simp only [memberValue, hcolon, h rest hrest, under, Except.mapError]

theorem encode_memberText (key : String) (v : Value) (rest : List UInt8) :
    encode (stringText key ++ ':' :: v.text) ++ rest
      = encode (stringText key) ++ ':'.toUInt8 :: (encode v.text ++ rest) := by
  simp only [encode_append, encode_cons, encodeChar_ascii (c := ':') (by decide),
    List.append_assoc, List.cons_append, List.nil_append]

theorem length_memberTexts (ms : List (String × Value)) :
    (memberTexts ms).length = ms.length := by
  induction ms with
  | nil => rfl
  | cons m ms ih => rw [memberTexts, List.length_cons, ih, List.length_cons]

/-- No required field is missing when all of them have been seen. -/
theorem Shape.missing?_eq_none {shape : Shape σ} {seen : List String}
    (h : ∀ field ∈ shape.fields, field.required = true → field.name ∈ seen) :
    shape.missing? seen = none := by
  rw [Shape.missing?, List.find?_eq_none]
  intro field hfield
  simp only [Bool.and_eq_true, Bool.not_eq_true', List.contains_eq_mem, decide_eq_false_iff_not,
    not_and, not_not]
  exact h field hfield

/-- The members after the first, up to the closing bracket. -/
theorem Shape.members_tail {shape : Shape σ} {depth : Nat} {ms : List (String × Value)}
    {sets : List (σ → σ)} (h : List.Forall₂ (shape.Sets depth) ms sets)
    {clock : List UInt8} (hclock : ms.length < clock.length) {seen : List String}
    (hnodup : (ms.map Prod.fst).Nodup) (hfresh : ∀ key ∈ ms.map Prod.fst, key ∉ seen)
    (hmissing : ∀ field ∈ shape.fields, field.required = true →
      field.name ∈ seen ∨ field.name ∈ ms.map Prod.fst)
    (x : σ) (rest : List UInt8) :
    shape.members depth clock false seen x
        (encode ((memberTexts ms).flatMap (',' :: ·)) ++ '\x7d'.toUInt8 :: rest)
      = .ok (sets.foldl (fun x set => set x) x, rest) := by
  induction h generalizing clock seen x with
  | nil =>
    cases clock with
    | nil => simp at hclock
    | cons tick clock =>
      have hnone : shape.missing? seen = none :=
        Shape.missing?_eq_none fun field hfield hrequired =>
          (hmissing field hfield hrequired).resolve_right List.not_mem_nil
      simp only [memberTexts, List.flatMap_nil, encode_nil, List.nil_append, Shape.members, nextKey,
        keyAhead_close, under, Except.mapError, hnone, List.foldl_nil]
  | @cons m set ms sets hm hms ih =>
    obtain ⟨key, v⟩ := m
    obtain ⟨field, hfield, hread⟩ := hm
    cases clock with
    | nil => simp at hclock
    | cons tick clock =>
      simp only [List.map_cons, List.nodup_cons] at hnodup
      have hnew : seen.contains key = false := by
        simpa using hfresh key List.mem_cons_self
      have hvalue := memberValue_text hread key
        (delimited_tail (memberTexts ms) delimited_brace rest)
      rw [memberTexts, encode_tail_cons, encode_memberText]
      simp only [Shape.members, nextKey_next, under, Except.mapError, hfield, hnew,
        Bool.false_eq_true, if_false, hvalue]
      -- the key that was read moves from the keys that are left to those that have been seen
      rw [ih (by simpa using hclock) hnodup.2 ?fresh ?missing, List.foldl_cons]
      case fresh =>
        intro other hother hseen
        rcases List.mem_cons.mp hseen with rfl | hseen
        · exact hnodup.1 hother
        · exact hfresh other (List.mem_cons_of_mem _ hother) hseen
      case missing =>
        intro f hf hrequired
        rcases hmissing f hf hrequired with hseen | hkey
        · exact .inl (List.mem_cons_of_mem key hseen)
        · rcases List.mem_cons.mp hkey with hkey | hkey
          · exact .inl (hkey ▸ List.mem_cons_self)
          · exact .inr hkey

theorem front_object (ms : List (String × Value)) (rest : List UInt8) :
    front (encode (Value.object ms).text ++ rest)
      = .ok (Found.map, encode (commaSeparated (memberTexts ms)) ++ '\x7d'.toUInt8 :: rest) := by
  rw [Value.text, encode_cons, encodeChar_ascii (by decide), encode_append, List.append_assoc,
    List.append_assoc, List.singleton_append, front_brace]
  rfl

/-- A written object is read as a record when a field reads each of its members, no two members have
    one key, and no required field is missing. -/
theorem Reads.record {shape : Shape σ} {depth : Nat} {ms : List (String × Value)}
    {sets : List (σ → σ)} (h : List.Forall₂ (shape.Sets depth) ms sets)
    (hnodup : (ms.map Prod.fst).Nodup)
    (hmissing : ∀ field ∈ shape.fields, field.required = true → field.name ∈ ms.map Prod.fst) :
    Reads (shape.read (depth + 1)) (.object ms)
      (sets.foldl (fun x set => set x) shape.initial) := by
  intro rest _
  simp only [Shape.read, front_object, nested]
  cases h with
  | nil =>
    have hnone : shape.missing? [] = none := Shape.missing?_eq_none hmissing
    simp only [memberTexts, commaSeparated, encode_nil, List.nil_append, Shape.members, nextKey,
      keyAhead_close, under, Except.mapError, hnone, List.foldl_nil]
  | @cons m set ms sets hm hms =>
    obtain ⟨key, v⟩ := m
    obtain ⟨field, hfield, hread⟩ := hm
    simp only [List.map_cons, List.nodup_cons] at hnodup
    have hnew : ([] : List String).contains key = false := rfl
    have hvalue := memberValue_text hread key
      (delimited_tail (memberTexts ms) delimited_brace rest)
    have hclock := length_lt_tail (memberTexts ms) '\x7d'.toUInt8 rest
    rw [length_memberTexts] at hclock
    rw [memberTexts, commaSeparated, encode_append, List.append_assoc, encode_memberText]
    simp only [Shape.members, nextKey_first, under, Except.mapError, hfield, hnew,
      Bool.false_eq_true, if_false, hvalue]
    rw [Shape.members_tail hms ?clock hnodup.2 ?fresh ?missing, List.foldl_cons]
    case clock =>
      simp only [List.length_append, List.length_cons] at hclock ⊢
      omega
    case fresh =>
      intro other hother hseen
      rw [List.mem_singleton.mp hseen] at hother
      exact hnodup.1 hother
    case missing =>
      intro f hf hrequired
      rcases List.mem_cons.mp (hmissing f hf hrequired) with hkey | hkey
      · exact .inl (hkey ▸ List.mem_cons_self)
      · exact .inr hkey

/-- The members of a written record may come in any order when no two fields set the same part. -/
theorem Reads.record_perm {shape : Shape σ} {depth : Nat} {ms ms' : List (String × Value)}
    {sets : List (σ → σ)} (h : List.Forall₂ (shape.Sets depth) ms sets)
    (hnodup : (ms.map Prod.fst).Nodup)
    (hmissing : ∀ field ∈ shape.fields, field.required = true → field.name ∈ ms.map Prod.fst)
    (hcommute : sets.Pairwise fun s t => ∀ x, s (t x) = t (s x)) (hperm : ms'.Perm ms) :
    Reads (shape.read (depth + 1)) (.object ms')
      (sets.foldl (fun x set => set x) shape.initial) := by
  -- the setters are permuted along with the members, and they commute
  obtain ⟨sets', hsets', hsetsPerm⟩ := List.perm_comp_forall₂ hperm h
  have hkeys : (ms'.map Prod.fst).Perm (ms.map Prod.fst) := hperm.map Prod.fst
  have hall : ∀ s ∈ sets, ∀ t ∈ sets, ∀ x, s (t x) = t (s x) := fun s hs t ht =>
    List.Pairwise.forall_of_forall_of_flip (fun _ _ _ => rfl) hcommute
      (hcommute.imp fun h x => (h x).symm) hs ht
  have hfold : sets'.foldl (fun x set => set x) shape.initial
      = sets.foldl (fun x set => set x) shape.initial :=
    hsetsPerm.foldl_eq'
      (fun s hs t ht x => hall t (hsetsPerm.mem_iff.mp ht) s (hsetsPerm.mem_iff.mp hs) x)
      shape.initial
  rw [← hfold]
  exact Reads.record hsets' (hkeys.nodup_iff.mpr hnodup)
    fun field hfield hrequired => hkeys.mem_iff.mpr (hmissing field hfield hrequired)

/-- A member that is left out when there is no value for it. -/
theorem Shape.sets_option {shape : Shape σ} {depth : Nat} {key : String} {part : Option α}
    {write : α → Value} {set : α → σ → σ}
    (h : ∀ x ∈ part, shape.Sets depth (key, write x) (set x)) :
    List.Forall₂ (shape.Sets depth) (part.map fun x => (key, write x)).toList
      (part.map set).toList := by
  cases part with
  | none => exact .nil
  | some x => exact .cons (h x rfl) .nil

/-! ## What every record holds -/

section Keeps

variable {shape : Shape σ} {holds : σ → Prop}

/-- Whatever a field of the record sets keeps a property. -/
def Shape.Keeps (shape : Shape σ) (holds : σ → Prop) : Prop :=
  ∀ field ∈ shape.fields, ∀ depth bytes set rest, field.read depth bytes = .ok (set, rest) →
    ∀ x, holds x → holds (set x)

theorem Shape.Keeps.members (h : shape.Keeps holds) {depth : Nat} {clock : List UInt8}
    {first : Bool} {seen : List String} {x y : σ} {bytes rest : List UInt8} (hx : holds x)
    (hread : shape.members depth clock first seen x bytes = .ok (y, rest)) : holds y := by
  induction clock generalizing first seen x bytes with
  | nil => cases hread
  | cons tick clock ih =>
    rw [Shape.members] at hread
    split at hread
    · cases hread
    · split at hread
      · cases hread
      · exact (Prod.mk.inj (Except.ok.inj hread)).1 ▸ hx
    · rename_i name behind _
      split at hread
      · -- an unknown member is passed over
        split at hread
        · cases hread
        · exact ih hx hread
      · rename_i field hfield
        split at hread
        · cases hread
        · unfold memberValue at hread
          split at hread
          · cases hread
          · rename_i set after hvalue
            split at hvalue
            · cases hvalue
            · have hset := eq_ok_of_mapError hvalue
              exact ih (h field (List.mem_of_find?_eq_some hfield) _ _ _ _ hset x hx) hread

theorem Shape.Keeps.items (h : shape.Keeps holds) {depth : Nat} {fields : List (Field σ)}
    (hfields : fields ⊆ shape.fields) {index : Nat} {x y : σ} {bytes rest : List UInt8}
    (hx : holds x) (hread : shape.items depth fields index x bytes = .ok (y, rest)) :
    holds y := by
  induction fields generalizing index x bytes with
  | nil =>
    rw [Shape.items] at hread
    cases hclose : closeItems bytes with
    | error fault => exact nomatch hclose ▸ hread
    | ok after =>
      rw [hclose] at hread
      exact (Prod.mk.inj (Except.ok.inj hread)).1 ▸ hx
  | cons field fields ih =>
    rw [List.cons_subset] at hfields
    rw [Shape.items] at hread
    split at hread
    · exact nomatch hread
    · split at hread
      · exact nomatch hread
      · exact (Prod.mk.inj (Except.ok.inj hread)).1 ▸ hx
    · split at hread
      · exact nomatch hread
      · rename_i set after hvalue
        exact ih hfields.2 (h field hfields.1 _ _ _ _ (eq_ok_of_mapError hvalue) x hx) hread

/-- A record that is read has every property of the initial record that its fields keep. -/
theorem Shape.Keeps.read (h : shape.Keeps holds) (hinitial : holds shape.initial) {depth : Nat}
    {x : σ} {bytes rest : List UInt8} (hread : shape.read depth bytes = .ok (x, rest)) :
    holds x := by
  unfold Shape.read at hread
  split at hread
  · exact nomatch hread
  · cases depth with
    | zero => exact nomatch hread
    | succ depth => exact h.members hinitial hread
  · cases depth with
    | zero => exact nomatch hread
    | succ depth => exact h.items (List.Subset.refl _) hinitial hread
  · exact nomatch hread

end Keeps

/-- What a field that may be left out sets is what its reader has read. -/
theorem Field.exists_of_optional {name : String} {read : Nat → Reader α} {write : α → σ → σ}
    {depth : Nat} {bytes rest : List UInt8} {set : σ → σ}
    (h : (Field.optional name read write).read depth bytes = .ok (set, rest)) :
    ∃ x, read depth bytes = .ok (x, rest) ∧ set = write x := by
  simp only [Field.optional] at h
  cases hread : read depth bytes with
  | error fault => exact nomatch hread ▸ h
  | ok found =>
    rw [hread] at h
    obtain ⟨hset, hrest⟩ := Prod.mk.inj (Except.ok.inj h)
    exact ⟨found.1, by rw [← hrest], hset.symm⟩

/-- An integer that is read in a range is the one at the front, and it is in the range. -/
theorem front_of_integer {low high n : Int} {expected : String} {bytes rest : List UInt8}
    (h : integer low high expected bytes = .ok (n, rest)) :
    front bytes = .ok (.number (.int n), rest) ∧ low ≤ n ∧ n ≤ high := by
  unfold integer at h
  split at h
  · cases h
  · rename_i hfront
    split at h
    · rename_i hrange
      obtain ⟨rfl, rfl⟩ := Prod.mk.inj (Except.ok.inj h)
      exact ⟨hfront, hrange⟩
    · cases h
  · cases h

/-- An integer that is read as one of 64 bits is one. -/
theorem isInt64_of_int64 {bytes rest : List UInt8} {n : Int} (h : int64 bytes = .ok (n, rest)) :
    IsInt64 n := by
  obtain ⟨-, hlow, hhigh⟩ := front_of_integer h
  exact ⟨hlow, Int.lt_of_le_sub_one hhigh⟩

/-- What is read by an optional reader is `null` or read by the reader itself. -/
theorem exists_of_optional {reader : Reader α} {bytes rest : List UInt8} {found : Option α}
    (h : optional reader bytes = .ok (found, rest)) :
    ∀ x ∈ found, ∃ bytes, reader bytes = .ok (x, rest) := by
  rintro x rfl
  unfold optional at h
  split at h
  · cases h
  · rename_i b behind _
    split at h
    · cases hnull : literal ("ull".toList.map Char.toUInt8) behind with
      | error fault =>
        rw [hnull] at h
        cases h
      | ok after =>
        rw [hnull] at h
        cases h
    · cases hread : reader (b :: behind) with
      | error fault =>
        rw [hread] at h
        cases h
      | ok taken =>
        rw [hread] at h
        obtain ⟨hx, hrest⟩ := Prod.mk.inj (Except.ok.inj h)
        exact ⟨b :: behind, by rw [hread, ← hrest, ← Option.some.inj hx]⟩

end SearchGateway.Json
