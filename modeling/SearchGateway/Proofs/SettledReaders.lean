/-
  SearchGateway.Proofs.SettledReaders

  What a typed reader makes of a JSON value is settled by the value alone: the blanks in front of it
  and what stands behind it have no say.  The statements follow the readers, from scalars to lists
  and to values of any kind.
-/
import SearchGateway.Json.Typed
import SearchGateway.Proofs.Settling
import SearchGateway.Proofs.Skipping

namespace SearchGateway.Json

variable {α β : Type}

/-- What a reader makes of a text, wherever the text stands: `some x` when it takes the text for `x`,
    `none` when it refuses the text. -/
def Settles (reader : Reader α) (text : List UInt8) (outcome : Option α) : Prop :=
  ∀ (gap : Blanks) {rest : List UInt8}, Delimited rest →
    (reader (gap.val ++ (text ++ rest))).toOption = outcome.map (·, rest)

/-- A reader that takes or refuses every value by the value alone. -/
def Settled (reader : Reader α) : Prop :=
  ∀ text, IsValue text → ∃ outcome, Settles reader text outcome

/-- A text has no two outcomes. -/
theorem Settles.unique {reader : Reader α} {text : List UInt8} {first second : Option α}
    (hfirst : Settles reader text first) (hsecond : Settles reader text second) :
    first = second := by
  have hmaps := (hfirst .none delimited_nil).symm.trans (hsecond .none delimited_nil)
  cases first <;> cases second <;> simp_all

/-! ## Scalars -/

theorem front_gap (gap : Blanks) (bytes : List UInt8) :
    front (gap.val ++ bytes) = front bytes := by
  rw [front, front, gap.dropBlank]

/-- What the front of a value is: a scalar that is settled, or an opening bracket, with the parts of
    the array or object as they have to be. -/
inductive Opens (part : List UInt8 → Prop) : List UInt8 → Prop
  | scalar {text : List UInt8} {outcome : Option Found} (h : Settles front text outcome)
      (hscalar : ∀ found ∈ outcome, found ≠ .sequence ∧ found ≠ .map) : Opens part text
  | array (gap : Blanks) {items : List Spaced} (h : ∀ item ∈ items, part item.text) :
      Opens part (arrayText gap items)
  | object (gap : Blanks) {members : List Member} (hkeys : ∀ m ∈ members, IsStringBody m.key.text)
      (h : ∀ m ∈ members, part m.value.text) : Opens part (objectText gap members)

theorem settles_front {text : List UInt8} {outcome : Option Found}
    (h : ∀ rest, Delimited rest → (front (text ++ rest)).toOption = outcome.map (·, rest)) :
    Settles front text outcome := by
  intro gap rest hrest
  rw [front_gap, h rest hrest]

theorem settles_front_null : Settles front (wordText "null") (some .null) :=
  settles_front fun _ _ => rfl

theorem settles_front_true : Settles front (wordText "true") (some (.bool true)) :=
  settles_front fun _ _ => rfl

theorem settles_front_false : Settles front (wordText "false") (some (.bool false)) :=
  settles_front fun _ _ => rfl

theorem settles_front_number {text : List UInt8} (h : IsUnsigned text) :
    ∃ outcome : Option Number, Settles front text (outcome.map .number) := by
  obtain ⟨outcome, houtcome⟩ := exists_unsignedNumber h false
  obtain ⟨b, tail, rfl, hb⟩ := h.exists_cons
  refine ⟨outcome, settles_front fun rest hrest => ?_⟩
  have hread := houtcome rest hrest
  rw [List.cons_append] at hread ⊢
  rw [front_digit hb, toOption_map, hread, Option.map_map, Option.map_map]
  rfl

theorem settles_front_negative {text : List UInt8} (h : IsUnsigned text) :
    ∃ outcome : Option Number, Settles front ('-'.toUInt8 :: text) (outcome.map .number) := by
  obtain ⟨outcome, houtcome⟩ := exists_unsignedNumber h true
  refine ⟨outcome, settles_front fun rest hrest => ?_⟩
  rw [List.cons_append, front_minus, toOption_map, houtcome rest hrest, Option.map_map,
    Option.map_map]
  rfl

theorem settles_front_string {body : List UInt8} {name : Option String} (h : Names body name) :
    Settles front ('"'.toUInt8 :: (body ++ ['"'.toUInt8])) (name.map .string) := by
  refine settles_front fun rest _ => ?_
  rw [List.cons_append, List.append_assoc, List.singleton_append, front_quote, toOption_map,
    h rest, Option.map_map, Option.map_map]
  rfl

theorem IsValue.opens {text : List UInt8} (h : IsValue text) : Opens IsValue text := by
  cases h with
  | nullWord => exact .scalar settles_front_null (by simp)
  | trueWord => exact .scalar settles_front_true (by simp)
  | falseWord => exact .scalar settles_front_false (by simp)
  | unsigned h =>
    obtain ⟨outcome, houtcome⟩ := settles_front_number h
    exact .scalar houtcome (by simp)
  | negative h =>
    obtain ⟨outcome, houtcome⟩ := settles_front_negative h
    exact .scalar houtcome (by simp)
  | string h =>
    obtain ⟨name, hname⟩ := exists_names h
    exact .scalar (settles_front_string hname) (by simp)
  | array gap h => exact .array gap h
  | object gap hkeys h => exact .object gap hkeys h

/-! ## Readers that look at the front -/

section Front

variable {reader : Reader α} {take : Found → Reader α}
  (hreader : ∀ bytes, reader bytes = (front bytes).bind fun found => take found.1 found.2)
include hreader

theorem settles_array {gap : Blanks} {items : List Spaced} {outcome : Option α}
    (h : ∀ rest, (take .sequence (arrayInside gap items rest)).toOption =
      outcome.map (·, rest)) : Settles reader (arrayText gap items) outcome := by
  intro gap' rest _
  rw [hreader, front_gap, arrayText_append, front_bracket]
  exact h rest

/-- What an array is read as is what its items are read as. -/
theorem toOption_take_of_settles {gap : Blanks} {items : List Spaced} {outcome : Option α}
    (h : Settles reader (arrayText gap items) outcome) :
    (take .sequence (arrayInside gap items [])).toOption = outcome.map (·, []) := by
  have hread := h .none delimited_nil
  rw [hreader, front_gap, arrayText_append, front_bracket] at hread
  exact hread

theorem settles_object {gap : Blanks} {members : List Member} {outcome : Option α}
    (h : ∀ rest, (take .map (objectInside gap members rest)).toOption =
      outcome.map (·, rest)) : Settles reader (objectText gap members) outcome := by
  intro gap' rest _
  rw [hreader, front_gap, objectText_append, front_brace]
  exact h rest

/-- What an object is read as is what its members are read as. -/
theorem toOption_take_map_of_settles {gap : Blanks} {members : List Member} {outcome : Option α}
    (h : Settles reader (objectText gap members) outcome) :
    (take .map (objectInside gap members [])).toOption = outcome.map (·, []) := by
  have hread := h .none delimited_nil
  rw [hreader, front_gap, objectText_append, front_brace] at hread
  exact hread

theorem settles_scalar {text : List UInt8} {found : Option Found} (hfound : Settles front text found)
    {outcome : Option α}
    (h : ∀ x ∈ found, ∀ rest, (take x rest).toOption = outcome.map (·, rest))
    (hnone : found = none → outcome = none) : Settles reader text outcome := by
  intro gap rest hrest
  have hread := hfound gap hrest
  rw [hreader]
  cases found with
  | none =>
    obtain ⟨fault, hfault⟩ := toOption_eq_none_iff.mp hread
    rw [hfault, hnone rfl]
    rfl
  | some x =>
    rw [toOption_eq_some_iff.mp hread]
    exact h x rfl rest

/-- A reader that goes on by the front of a value is settled when it is for each front. -/
theorem settled_of_front
    (hscalar : ∀ found, found ≠ .sequence → found ≠ .map →
      ∃ outcome : Option α, ∀ rest, (take found rest).toOption = outcome.map (·, rest))
    (harray : ∀ gap items, (∀ item ∈ items, IsValue item.text) →
      ∃ outcome : Option α, ∀ rest,
        (take .sequence (arrayInside gap items rest)).toOption = outcome.map (·, rest))
    (hobject : ∀ gap members, (∀ m ∈ members, IsStringBody m.key.text) →
      (∀ m ∈ members, IsValue m.value.text) →
      ∃ outcome : Option α, ∀ rest,
        (take .map (objectInside gap members rest)).toOption = outcome.map (·, rest)) :
    Settled reader := by
  intro text htext
  cases htext.opens with
  | @scalar _ found hfound hkind =>
    cases found with
    | none => exact ⟨none, settles_scalar hreader hfound (fun _ hx => nomatch hx) fun _ => rfl⟩
    | some found =>
      obtain ⟨hsequence, hmap⟩ := hkind found rfl
      obtain ⟨outcome, houtcome⟩ := hscalar found hsequence hmap
      refine ⟨outcome, settles_scalar hreader hfound ?_ fun h => nomatch h⟩
      intro x hx
      obtain rfl : found = x := Option.some.inj hx
      exact houtcome
  | array gap h =>
    obtain ⟨outcome, houtcome⟩ := harray gap _ h
    exact ⟨outcome, settles_array hreader houtcome⟩
  | object gap hkeys h =>
    obtain ⟨outcome, houtcome⟩ := hobject gap _ hkeys h
    exact ⟨outcome, settles_object hreader houtcome⟩

end Front

/-! ## Simple types -/

/-- How an integer goes on by the front of a value. -/
def takeInteger (low high : Int) (expected : String) (found : Found) : Reader Int := fun rest =>
  match found with
  | .number (.int n) =>
    if low ≤ n ∧ n ≤ high then .ok (n, rest) else mismatched (.outOfRange n expected)
  | found => mismatched (.wrongType found expected)

theorem integer_eq_bind (low high : Int) (expected : String) (bytes : List UInt8) :
    integer low high expected bytes =
      (front bytes).bind fun found => takeInteger low high expected found.1 found.2 := by
  rw [integer]
  rcases front bytes with fault | ⟨found, rest⟩
  · rfl
  · rcases found with _ | _ | (_ | _) | _ | _ | _ <;> rfl

theorem settled_integer (low high : Int) (expected : String) :
    Settled (integer low high expected) := by
  refine settled_of_front (integer_eq_bind low high expected) (fun found _ _ => ?_)
    (fun _ _ _ => ⟨none, fun _ => rfl⟩) fun _ _ _ _ => ⟨none, fun _ => rfl⟩
  rcases found with _ | _ | (n | _) | _ | _ | _
  case number.int =>
    by_cases hrange : low ≤ n ∧ n ≤ high
    · exact ⟨some n, fun rest => by simp [takeInteger, hrange]⟩
    · exact ⟨none, fun rest => by simp [takeInteger, hrange]⟩
  all_goals exact ⟨none, fun rest => rfl⟩

theorem settled_int64 : Settled int64 :=
  settled_integer _ _ _

theorem settled_natural (width : Nat) (expected : String) : Settled (natural width expected) := by
  intro text htext
  obtain ⟨outcome, houtcome⟩ := settled_integer 0 (Nat.pow 2 width - 1 : Nat) expected text htext
  refine ⟨outcome.map Int.toNat, fun gap rest hrest => ?_⟩
  rw [natural, toOption_map, houtcome gap hrest, Option.map_map, Option.map_map]
  rfl

/-- How a text goes on by the front of a value. -/
def takeString (found : Found) : Reader String := fun rest =>
  match found with
  | .string s => .ok (s, rest)
  | found => mismatched (.wrongType found "a string")

theorem string_eq_bind (bytes : List UInt8) :
    string bytes = (front bytes).bind fun found => takeString found.1 found.2 := by
  rw [string]
  rcases front bytes with fault | ⟨found, rest⟩
  · rfl
  · cases found <;> rfl

theorem settled_string : Settled string := by
  refine settled_of_front string_eq_bind (fun found _ _ => ?_)
    (fun _ _ _ => ⟨none, fun _ => rfl⟩) fun _ _ _ _ => ⟨none, fun _ => rfl⟩
  cases found with
  | string s => exact ⟨some s, fun rest => rfl⟩
  | _ => exact ⟨none, fun rest => rfl⟩

/-! ## Optional values -/

/-- A value other than `null` does not begin like it. -/
theorem IsValue.exists_cons_ne {text : List UInt8} (h : IsValue text)
    (hnull : text ≠ wordText "null") :
    ∃ b tail, text = b :: tail ∧ isBlank b = false ∧ b ≠ 'n'.toUInt8 := by
  cases h with
  | nullWord => exact absurd rfl hnull
  | trueWord => exact ⟨_, _, rfl, by decide, by decide⟩
  | falseWord => exact ⟨_, _, rfl, by decide, by decide⟩
  | unsigned h =>
    obtain ⟨b, tail, rfl, hb⟩ := h.exists_cons
    exact ⟨b, tail, rfl, isBlank_of_isDigit hb, ne_of_isDigit hb (by decide)⟩
  | negative => exact ⟨_, _, rfl, by decide, by decide⟩
  | string => exact ⟨_, _, rfl, by decide, by decide⟩
  | array => exact ⟨_, _, rfl, by decide, by decide⟩
  | object => exact ⟨_, _, rfl, by decide, by decide⟩

theorem settles_optional_null (reader : Reader α) :
    Settles (optional reader) (wordText "null") (some none) := by
  intro gap rest _
  rw [optional, gap.dropBlank]
  rfl

theorem Settles.optional {reader : Reader α} {text : List UInt8} {outcome : Option α}
    (h : Settles reader text outcome) (htext : IsValue text) (hnull : text ≠ wordText "null") :
    Settles (optional reader) text (outcome.map some) := by
  obtain ⟨b, tail, rfl, hblank, hne⟩ := htext.exists_cons_ne hnull
  intro gap rest hrest
  have hread := h .none hrest
  rw [Blanks.none, List.nil_append, List.cons_append] at hread
  rw [Json.optional, gap.dropBlank, List.cons_append, dropBlank_cons hblank]
  simp only [if_neg hne, toOption_map, hread, Option.map_map]
  rfl

theorem Settled.optional {reader : Reader α} (h : Settled reader) : Settled (optional reader) := by
  intro text htext
  by_cases hnull : text = wordText "null"
  · exact ⟨some none, hnull ▸ settles_optional_null reader⟩
  · obtain ⟨outcome, houtcome⟩ := h text htext
    exact ⟨_, houtcome.optional htext hnull⟩

/-! ## Arrays -/

theorem itemAhead_closed (first : Bool) (gap : Blanks) (rest : List UInt8) :
    itemAhead first (gap.val ++ ']'.toUInt8 :: rest) = .ok (.closed rest) := by
  rw [itemAhead, gap.dropBlank]
  rfl

/-- An item of an array begins behind its blanks. -/
theorem dropBlank_item {item : Spaced} (h : IsValue item.text) (gap : Blanks)
    (rest : List UInt8) :
    dropBlank (gap.val ++ (item.bytes ++ rest)) = item.text ++ (item.behind.val ++ rest) := by
  obtain ⟨b, tail, htext, hblank, -⟩ := h.exists_cons
  rw [Spaced.append_bytes, (gap.append item.before).dropBlank, htext, List.cons_append,
    dropBlank_cons hblank]

theorem itemAhead_item {item : Spaced} (h : IsValue item.text) (gap : Blanks)
    (rest : List UInt8) :
    itemAhead true (gap.val ++ (item.bytes ++ rest)) =
      .ok (.item (item.text ++ (item.behind.val ++ rest))) := by
  obtain ⟨b, tail, htext, -, hclose⟩ := h.exists_cons
  rw [itemAhead, dropBlank_item h, htext, List.cons_append]
  simp only [if_neg hclose, if_true]

theorem itemAhead_comma {item : Spaced} (h : IsValue item.text) (gap : Blanks)
    (rest : List UInt8) :
    itemAhead false (gap.val ++ ','.toUInt8 :: (item.bytes ++ rest)) =
      .ok (.item (item.text ++ (item.behind.val ++ rest))) := by
  obtain ⟨b, tail, htext, -, hclose⟩ := h.exists_cons
  have hcomma : ','.toUInt8 ≠ ']'.toUInt8 := by decide
  have hdrop := dropBlank_item h .none rest
  rw [Blanks.none, List.nil_append, htext, List.cons_append] at hdrop
  rw [itemAhead, gap.dropBlank, dropBlank_cons (by decide)]
  simp only [if_neg hcomma, Bool.false_eq_true, if_false, if_true, hdrop, if_neg hclose, htext,
    List.cons_append]

/-- The items behind the first ones, up to the closing bracket. -/
theorem toOption_items {item : Reader α} {parts : List Spaced} {outcomes : List (Option α)}
    (hvalues : ∀ part ∈ parts, IsValue part.text)
    (h : List.Forall₂ (fun part outcome => Settles item part.text outcome) parts outcomes)
    {clock : List UInt8} (hclock : parts.length < clock.length) (taken : List α) {index : Nat}
    (hindex : index ≠ 0) (gap : Blanks) (rest : List UInt8) :
    (items item clock taken index (gap.val ++ itemsBehind parts rest)).toOption =
      (outcomes.mapM id).map fun xs => (taken.reverse ++ xs, rest) := by
  induction h generalizing clock taken index gap with
  | nil =>
    cases clock with
    | nil => exact absurd hclock (Nat.not_lt_zero _)
    | cons tick clock =>
      simp [items, itemsBehind_nil, itemAhead_closed]
  | @cons part outcome parts outcomes hpart _ ih =>
    rw [List.forall_mem_cons] at hvalues
    cases clock with
    | nil => exact absurd hclock (Nat.not_lt_zero _)
    | cons tick clock =>
      have hlater : decide (index = 0) = false := decide_eq_false hindex
      have hread := hpart .none (delimited_itemsBehind part.behind parts rest)
      rw [Blanks.none, List.nil_append] at hread
      simp only [itemsBehind_cons, items, hlater, itemAhead_comma hvalues.1]
      cases outcome with
      | none =>
        obtain ⟨fault, hfault⟩ := toOption_eq_none_iff.mp hread
        simp [hfault, under, Except.mapError]
      | some x =>
        rw [toOption_eq_some_iff.mp hread]
        simp only [under, Except.mapError]
        rw [ih hvalues.2 (by simpa using hclock) (x :: taken) (Nat.succ_ne_zero index) part.behind]
        cases hothers : outcomes.mapM id <;> simp [hothers]

/-- The items of an array are read when each of them is. -/
theorem toOption_arrayRest {item : Reader α} {parts : List Spaced} {outcomes : List (Option α)}
    (hvalues : ∀ part ∈ parts, IsValue part.text)
    (h : List.Forall₂ (fun part outcome => Settles item part.text outcome) parts outcomes)
    (gap : Blanks) (rest : List UInt8) :
    (arrayRest item (arrayInside gap parts rest)).toOption =
      (outcomes.mapM id).map (·, rest) := by
  rw [arrayRest]
  -- the clock is the text itself, which is longer than the list of its items
  have hclock := length_le_arrayInside gap parts rest
  cases h with
  | nil => simp [items, arrayInside_nil, itemAhead_closed]
  | @cons part outcome parts outcomes hpart hparts =>
    rw [List.forall_mem_cons] at hvalues
    have hread := hpart .none (delimited_itemsBehind part.behind parts rest)
    rw [Blanks.none, List.nil_append] at hread
    have hahead : itemAhead true (arrayInside gap (part :: parts) rest) =
        .ok (.item (part.text ++ (part.behind.val ++ itemsBehind parts rest))) := by
      rw [arrayInside_cons, itemAhead_item hvalues.1]
    rw [items, decide_eq_true rfl, hahead]
    cases outcome with
    | none =>
      obtain ⟨fault, hfault⟩ := toOption_eq_none_iff.mp hread
      simp [hfault, under, Except.mapError]
    | some x =>
      simp only [toOption_eq_some_iff.mp hread, under, Except.mapError]
      rw [toOption_items hvalues.2 hparts (Nat.lt_of_succ_le hclock) [x] (Nat.succ_ne_zero 0)
        part.behind]
      cases hothers : outcomes.mapM id <;> simp [hothers]

/-- The outcomes of some values, one for each. -/
theorem Settled.exists_outcomes {item : Reader α} (h : Settled item) {parts : List Spaced}
    (hvalues : ∀ part ∈ parts, IsValue part.text) : ∃ outcomes,
      List.Forall₂ (fun part outcome => Settles item part.text outcome) parts outcomes := by
  induction parts with
  | nil => exact ⟨[], .nil⟩
  | cons part parts ih =>
    rw [List.forall_mem_cons] at hvalues
    obtain ⟨outcome, houtcome⟩ := h part.text hvalues.1
    obtain ⟨outcomes, houtcomes⟩ := ih hvalues.2
    exact ⟨outcome :: outcomes, .cons houtcome houtcomes⟩

/-- How a list goes on by the front of a value. -/
def takeList (item : Nat → Reader α) (depth : Nat) (found : Found) : Reader (List α) := fun rest =>
  match found with
  | .sequence => nested (fun depth => arrayRest (item depth)) depth rest
  | found => mismatched (.wrongType found "a sequence")

theorem list_eq_bind (item : Nat → Reader α) (depth : Nat) (bytes : List UInt8) :
    list item depth bytes = (front bytes).bind fun found => takeList item depth found.1 found.2 := by
  rw [list]
  rcases front bytes with fault | ⟨found, rest⟩
  · rfl
  · cases found <;> rfl

/-- A list is read when each of its items is. -/
theorem settles_list {item : Nat → Reader α} {depth : Nat} {gap : Blanks} {parts : List Spaced}
    {outcomes : List (Option α)} (hvalues : ∀ part ∈ parts, IsValue part.text)
    (h : List.Forall₂ (fun part outcome => Settles (item depth) part.text outcome) parts outcomes) :
    Settles (list item (depth + 1)) (arrayText gap parts) (outcomes.mapM id) :=
  settles_array (list_eq_bind item (depth + 1)) fun rest => toOption_arrayRest hvalues h gap rest

theorem settled_list {item : Nat → Reader α} (h : ∀ depth, Settled (item depth)) (depth : Nat) :
    Settled (list item depth) := by
  refine settled_of_front (list_eq_bind item depth) (fun found hsequence _ => ?_) ?_
    fun _ _ _ _ => ⟨none, fun _ => rfl⟩
  · cases found with
    | sequence => exact absurd rfl hsequence
    | _ => exact ⟨none, fun _ => rfl⟩
  · intro gap parts hvalues
    cases depth with
    | zero => exact ⟨none, fun _ => rfl⟩
    | succ depth =>
      obtain ⟨outcomes, houtcomes⟩ := (h depth).exists_outcomes hvalues
      exact ⟨_, fun rest => toOption_arrayRest hvalues houtcomes gap rest⟩

/-! ## Members -/

theorem keyAhead_closed (first : Bool) (gap : Blanks) (rest : List UInt8) :
    keyAhead first (gap.val ++ '\x7d'.toUInt8 :: rest) = .ok (.closed rest) := by
  rw [keyAhead, gap.dropBlank]
  rfl

theorem keyAhead_member (gap : Blanks) (m : Member) (rest : List UInt8) :
    keyAhead true (gap.val ++ (m.bytes ++ rest)) = .ok (.item (m.opened ++ rest)) := by
  rw [keyAhead, m.dropBlank_bytes]
  rfl

theorem keyAhead_comma (gap : Blanks) (m : Member) (rest : List UInt8) :
    keyAhead false (gap.val ++ ','.toUInt8 :: (m.bytes ++ rest)) =
      .ok (.item (m.opened ++ rest)) := by
  have hquote : '"'.toUInt8 ≠ '\x7d'.toUInt8 := by decide
  have hcomma : ','.toUInt8 ≠ '\x7d'.toUInt8 := by decide
  have hdrop := m.dropBlank_bytes .none rest
  rw [Blanks.none, List.nil_append] at hdrop
  rw [keyAhead, gap.dropBlank, dropBlank_cons (by decide)]
  simp only [if_neg hcomma, Bool.false_eq_true, if_false, if_true, hdrop]

/-- What stands behind the key of a member. -/
def Member.behindKey (m : Member) (rest : List UInt8) : List UInt8 :=
  m.key.behind.val ++ ':'.toUInt8 :: (m.value.bytes ++ rest)

theorem toOption_nextKey {first : Bool} {bytes rest : List UInt8} {m : Member}
    {name : Option String} (hahead : keyAhead first bytes = .ok (.item (m.opened ++ rest)))
    (hname : Names m.key.text name) :
    (nextKey first bytes).toOption = name.map (.key · (m.behindKey rest)) := by
  have hread := hname (m.behindKey rest)
  rw [nextKey, hahead, m.opened_append]
  cases name with
  | none =>
    obtain ⟨fault, hfault⟩ := toOption_eq_none_iff.mp hread
    rw [Member.behindKey] at hfault
    simp [hfault]
  | some name =>
    have hok := toOption_eq_some_iff.mp hread
    rw [Member.behindKey] at hok
    simp [hok, Member.behindKey]

theorem toOption_memberValue {item : Reader α} {m : Member} {outcome : Option α}
    (h : Settles item m.value.text outcome) (name : String) {rest : List UInt8}
    (hrest : Delimited (m.value.behind.val ++ rest)) :
    (memberValue name item (m.behindKey rest)).toOption =
      outcome.map (·, m.value.behind.val ++ rest) := by
  have hread := h m.value.before hrest
  rw [memberValue, Member.behindKey, colon_gap, Spaced.bytes]
  simpa using hread

/-- Whatever object a member stands in, it goes in with its name and value, or it is refused. -/
theorem toOption_members {item : Reader Value} {m : Member} {name : Option String}
    {outcome : Option Value} (hname : Names m.key.text name)
    (hvalue : Settles item m.value.text outcome) {first : Bool} {bytes rest : List UInt8}
    (hahead : keyAhead first bytes = .ok (.item (m.opened ++ rest)))
    (hrest : Delimited (m.value.behind.val ++ rest)) (tick : UInt8) (clock : List UInt8)
    (taken : List (String × Value)) :
    (members item (tick :: clock) first taken bytes).toOption =
      name.bind fun name => outcome.bind fun v =>
        (members item clock false (insertMember name v taken)
          (m.value.behind.val ++ rest)).toOption := by
  have hkey := toOption_nextKey hahead hname
  cases name with
  | none =>
    obtain ⟨fault, hfault⟩ := toOption_eq_none_iff.mp hkey
    simp [members, hfault, under, Except.mapError]
  | some name =>
    have hread := toOption_memberValue hvalue name hrest
    simp only [members, toOption_eq_some_iff.mp hkey, under, Except.mapError, Option.bind_some]
    cases outcome with
    | none =>
      obtain ⟨fault, hfault⟩ := toOption_eq_none_iff.mp hread
      simp [hfault]
    | some v => simp [toOption_eq_some_iff.mp hread]

/-- The members behind the first ones, up to the closing bracket. -/
theorem exists_members {item : Reader Value} (hitem : Settled item) {ms : List Member}
    (hkeys : ∀ m ∈ ms, IsStringBody m.key.text) (hvalues : ∀ m ∈ ms, IsValue m.value.text)
    (taken : List (String × Value)) :
    ∃ outcome : Option (List (String × Value)), ∀ (clock : List UInt8) (gap : Blanks)
      (rest : List UInt8), ms.length < clock.length →
      (members item clock false taken (gap.val ++ membersBehind ms rest)).toOption =
        outcome.map (·, rest) := by
  induction ms generalizing taken with
  | nil =>
    refine ⟨some taken, fun clock gap rest hclock => ?_⟩
    cases clock with
    | nil => exact absurd hclock (Nat.not_lt_zero _)
    | cons tick clock =>
      simp [members, nextKey, membersBehind_nil, keyAhead_closed, under, Except.mapError]
  | cons m ms ih =>
    rw [List.forall_mem_cons] at hkeys hvalues
    obtain ⟨name, hname⟩ := exists_names hkeys.1
    obtain ⟨outcome, hvalue⟩ := hitem m.value.text hvalues.1
    -- the members behind go in with those taken so far, so their outcome is one for each of these
    obtain ⟨others, hothers⟩ := Classical.axiomOfChoice (ih hkeys.2 hvalues.2)
    refine ⟨name.bind fun name => outcome.bind fun v => others (insertMember name v taken),
      fun clock gap rest hclock => ?_⟩
    cases clock with
    | nil => exact absurd hclock (Nat.not_lt_zero _)
    | cons tick clock =>
      have hstep := toOption_members hname hvalue (keyAhead_comma gap m (membersBehind ms rest))
        (delimited_membersBehind m.value.behind ms rest) tick clock taken
      rw [membersBehind_cons, hstep]
      have hbehind (taken : List (String × Value)) :=
        hothers taken clock m.value.behind rest (by simpa using hclock)
      cases name <;> cases outcome <;> simp [hbehind]

/-- What an object of any members is read as does not depend on what follows. -/
theorem exists_objectRest {item : Reader Value} (hitem : Settled item) (gap : Blanks)
    {ms : List Member} (hkeys : ∀ m ∈ ms, IsStringBody m.key.text)
    (hvalues : ∀ m ∈ ms, IsValue m.value.text) :
    ∃ outcome : Option (List (String × Value)), ∀ rest,
      (objectRest item (objectInside gap ms rest)).toOption = outcome.map (·, rest) := by
  cases ms with
  | nil =>
    refine ⟨some [], fun rest => ?_⟩
    simp [objectRest, members, nextKey, objectInside_nil, keyAhead_closed, under, Except.mapError]
  | cons m ms =>
    rw [List.forall_mem_cons] at hkeys hvalues
    obtain ⟨name, hname⟩ := exists_names hkeys.1
    obtain ⟨outcome, hvalue⟩ := hitem m.value.text hvalues.1
    obtain ⟨others, hothers⟩ := Classical.axiomOfChoice (exists_members hitem hkeys.2 hvalues.2)
    refine ⟨name.bind fun name => outcome.bind fun v => others (insertMember name v []),
      fun rest => ?_⟩
    have hlength := length_le_objectInside gap (m :: ms) rest
    have hahead : keyAhead true (objectInside gap (m :: ms) rest) =
        .ok (.item (m.opened ++ membersBehind ms rest)) := by
      rw [objectInside_cons, keyAhead_member]
    have hstep := toOption_members hname hvalue hahead
      (delimited_membersBehind m.value.behind ms rest) 0 (objectInside gap (m :: ms) rest) []
    have hbehind (taken : List (String × Value)) :=
      hothers taken (objectInside gap (m :: ms) rest) m.value.behind rest
        (Nat.lt_of_succ_le hlength)
    rw [objectRest, hstep]
    cases name <;> cases outcome <;> simp [hbehind]

/-! ## Values -/

/-- How a value goes on by its front. -/
def takeValue (array : Reader (List Value)) (object : Reader (List (String × Value)))
    (found : Found) : Reader Value := fun rest =>
  match found with
  | .null => .ok (.null, rest)
  | .bool b => .ok (.bool b, rest)
  | .number n => .ok (.number n, rest)
  | .string s => .ok (.string s, rest)
  | .sequence => (array rest).map fun (vs, rest) => (.array vs, rest)
  | .map => (object rest).map fun (ms, rest) => (.object ms, rest)

theorem valueWith_eq_bind (array : Reader (List Value)) (object : Reader (List (String × Value)))
    (bytes : List UInt8) : valueWith array object bytes =
      (front bytes).bind fun found => takeValue array object found.1 found.2 := by
  rw [valueWith]
  rcases front bytes with fault | ⟨found, rest⟩
  · rfl
  · cases found <;> rfl

theorem exists_takeValue (array : Reader (List Value)) (object : Reader (List (String × Value)))
    {found : Found} (hsequence : found ≠ .sequence) (hmap : found ≠ .map) :
    ∃ outcome : Option Value, ∀ rest,
      (takeValue array object found rest).toOption = outcome.map (·, rest) := by
  cases found with
  | null => exact ⟨some .null, fun _ => rfl⟩
  | bool b => exact ⟨some (.bool b), fun _ => rfl⟩
  | number n => exact ⟨some (.number n), fun _ => rfl⟩
  | string s => exact ⟨some (.string s), fun _ => rfl⟩
  | sequence => exact absurd rfl hsequence
  | map => exact absurd rfl hmap

theorem settled_value (depth : Nat) : Settled (value depth) := by
  induction depth with
  | zero =>
    -- brackets are refused at once, whatever they hold
    exact settled_of_front (valueWith_eq_bind tooDeep tooDeep)
      (fun _ hsequence hmap => exists_takeValue _ _ hsequence hmap)
      (fun _ _ _ => ⟨none, fun _ => rfl⟩) fun _ _ _ _ => ⟨none, fun _ => rfl⟩
  | succ depth ih =>
    refine settled_of_front (valueWith_eq_bind (arrayRest (value depth)) (objectRest (value depth)))
      (fun _ hsequence hmap => exists_takeValue _ _ hsequence hmap) (fun gap items hvalues => ?_)
      fun gap ms hkeys hvalues => ?_
    · obtain ⟨outcomes, houtcomes⟩ := ih.exists_outcomes hvalues
      refine ⟨(outcomes.mapM id).map .array, fun rest => ?_⟩
      simp only [takeValue, toOption_map, toOption_arrayRest hvalues houtcomes, Option.map_map]
      rfl
    · obtain ⟨outcome, houtcome⟩ := exists_objectRest ih gap hkeys hvalues
      refine ⟨outcome.map .object, fun rest => ?_⟩
      simp only [takeValue, toOption_map, houtcome rest, Option.map_map]
      rfl

/-- The members of an object; other values have none to read. -/
def objectMembers? : Value → Option (List (String × Value))
  | .object ms => some ms
  | _ => none

/-- An object is read as its members where any value is read. -/
theorem toOption_mapReader (depth : Nat) (bytes : List UInt8) :
    (map depth bytes).toOption = (value depth bytes).toOption.bind fun found =>
      (objectMembers? found.1).map (·, found.2) := by
  cases depth with
  | zero =>
    simp only [map, value, valueWith]
    rcases front bytes with fault | ⟨found, rest⟩
    · rfl
    · cases found <;> rfl
  | succ depth =>
    simp only [map, value, valueWith]
    rcases front bytes with fault | ⟨found, rest⟩
    · rfl
    · cases found with
      | sequence =>
        dsimp only
        cases arrayRest (value depth) rest <;> rfl
      | map =>
        dsimp only [nested]
        cases objectRest (value depth) rest <;> rfl
      | _ => rfl

theorem Settles.map {depth : Nat} {text : List UInt8} {outcome : Option Value}
    (h : Settles (value depth) text outcome) :
    Settles (map depth) text (outcome.bind objectMembers?) := by
  intro gap rest hrest
  rw [toOption_mapReader, h gap hrest]
  cases outcome <;> rfl

theorem settled_map (depth : Nat) : Settled (map depth) := by
  intro text htext
  obtain ⟨outcome, houtcome⟩ := settled_value depth text htext
  exact ⟨_, houtcome.map⟩

/-- What is read as members is read as an object. -/
theorem settles_value_of_map {depth : Nat} {text : List UInt8} (htext : IsValue text)
    {ms : List (String × Value)} (h : Settles (map depth) text (some ms)) :
    Settles (value depth) text (some (.object ms)) := by
  obtain ⟨outcome, houtcome⟩ := settled_value depth text htext
  obtain ⟨v, rfl, hv⟩ := Option.bind_eq_some_iff.mp (houtcome.map.unique h)
  cases v with
  | object ms' =>
    obtain rfl := Option.some.inj hv
    exact houtcome
  | _ => cases hv

/-! ## Named constants -/

section OneOf

variable (known : List (String × α))

theorem settles_oneOf_string {body : List UInt8} {name : Option String} (h : Names body name)
    (depth : Nat) : Settles (oneOf known depth) ('"'.toUInt8 :: (body ++ ['"'.toUInt8]))
      (name.bind fun name => (constant known name).toOption) := by
  intro gap rest _
  have hread := h rest
  rw [oneOf, gap.dropBlank, List.cons_append, dropBlank_cons (by decide), List.append_assoc,
    List.singleton_append]
  cases name with
  | none =>
    obtain ⟨fault, hfault⟩ := toOption_eq_none_iff.mp hread
    simp [hfault]
  | some name => simp [toOption_eq_some_iff.mp hread]

/-- The value of a constant's one member is `null`, and the object ends behind it. -/
def unitEnd (x : α) (found : Found × List UInt8) : Except Fault (α × List UInt8) :=
  match found with
  | (.null, rest) =>
    match dropBlank rest with
    | [] => ended .object
    | b :: rest => if b = '\x7d'.toUInt8 then .ok (x, rest) else malformed .expectedValue
  | (found, _) => mismatched (.wrongType found "unit")

theorem oneOf_object (depth : Nat) (gap : Blanks) (bytes : List UInt8) :
    oneOf known (depth + 1) (gap.val ++ '\x7b'.toUInt8 :: bytes) =
      (variantKey bytes).bind fun key => (constant known key.1).bind fun x =>
        (memberValue key.1 front key.2).bind (unitEnd x) := by
  have hquote : '\x7b'.toUInt8 ≠ '"'.toUInt8 := by decide
  rw [oneOf, gap.dropBlank, dropBlank_cons (by decide)]
  simp only [if_neg hquote, if_true, nested]
  rcases variantKey bytes with fault | ⟨name, rest⟩
  · rfl
  · cases hconstant : constant known name with
    | error fault => simp [hconstant, Except.bind]
    | ok x =>
      simp only [hconstant, Except.bind]
      rcases memberValue name front rest with fault | ⟨found, rest⟩
      · rfl
      · cases found <;> rfl

theorem variantKey_closed (gap : Blanks) (rest : List UInt8) :
    variantKey (gap.val ++ '\x7d'.toUInt8 :: rest) = malformed .expectedValue := by
  rw [variantKey, gap.dropBlank]
  rfl

theorem variantKey_member (gap : Blanks) (m : Member) (rest : List UInt8) :
    variantKey (gap.val ++ (m.bytes ++ rest)) = stringRest (m.opened ++ rest) := by
  rw [variantKey, m.dropBlank_bytes]
  rfl

/-- Behind its value, the object of a constant ends or goes on with another member. -/
theorem exists_unitEnd (x : α) (found : Found) (gap : Blanks) (ms : List Member) :
    ∃ outcome : Option α, ∀ rest,
      (unitEnd x (found, gap.val ++ membersBehind ms rest)).toOption = outcome.map (·, rest) := by
  cases found with
  | null =>
    cases ms with
    | nil =>
      refine ⟨some x, fun rest => ?_⟩
      simp only [membersBehind_nil, unitEnd, gap.dropBlank]
      rfl
    | cons m ms =>
      refine ⟨none, fun rest => ?_⟩
      simp only [membersBehind_cons, unitEnd, gap.dropBlank]
      rfl
  | _ => exact ⟨none, fun _ => rfl⟩

/-- The value of a constant's one member is looked at no further than its front. -/
theorem exists_unit {m : Member} (h : IsValue m.value.text) (name : String) (x : α)
    (ms : List Member) : ∃ outcome : Option α, ∀ rest,
      ((memberValue name front (m.behindKey (membersBehind ms rest))).bind (unitEnd x)).toOption =
        outcome.map (·, rest) := by
  have hbehind (rest : List UInt8) := delimited_membersBehind m.value.behind ms rest
  generalize htext : m.value.text = text at h
  cases h.opens with
  | @scalar _ found hfound =>
    cases found with
    | none =>
      refine ⟨none, fun rest => ?_⟩
      obtain ⟨fault, hfault⟩ := toOption_eq_none_iff.mp
        (toOption_memberValue (htext ▸ hfound) name (hbehind rest))
      simp [hfault, Except.bind]
    | some found =>
      obtain ⟨outcome, houtcome⟩ := exists_unitEnd x found m.value.behind ms
      refine ⟨outcome, fun rest => ?_⟩
      have hread := toOption_eq_some_iff.mp
        (toOption_memberValue (htext ▸ hfound) name (hbehind rest))
      rw [hread]
      exact houtcome rest
  | array gap =>
    refine ⟨none, fun rest => ?_⟩
    rw [memberValue, Member.behindKey, colon_gap, Spaced.bytes, htext, List.append_assoc,
      List.append_assoc]
    simp only [front_gap, arrayText_append, front_bracket]
    rfl
  | object gap =>
    refine ⟨none, fun rest => ?_⟩
    rw [memberValue, Member.behindKey, colon_gap, Spaced.bytes, htext, List.append_assoc,
      List.append_assoc]
    simp only [front_gap, objectText_append, front_brace]
    rfl

theorem exists_oneOf_object (depth : Nat) (gap : Blanks) {ms : List Member}
    (hkeys : ∀ m ∈ ms, IsStringBody m.key.text) (hvalues : ∀ m ∈ ms, IsValue m.value.text) :
    ∃ outcome, Settles (oneOf known depth) (objectText gap ms) outcome := by
  cases depth with
  | zero =>
    refine ⟨none, fun gap' rest _ => ?_⟩
    rw [oneOf, gap'.dropBlank]
    rfl
  | succ depth =>
    cases ms with
    | nil =>
      refine ⟨none, fun gap' rest _ => ?_⟩
      rw [objectText_append, oneOf_object, objectInside_nil, variantKey_closed]
      rfl
    | cons m ms =>
      rw [List.forall_mem_cons] at hkeys hvalues
      obtain ⟨name, hname⟩ := exists_names hkeys.1
      have hkey (rest : List UInt8) :
          (variantKey (objectInside gap (m :: ms) rest)).toOption =
            name.map (·, m.behindKey (membersBehind ms rest)) := by
        rw [objectInside_cons, variantKey_member, m.opened_append]
        exact hname _
      cases name with
      | none =>
        refine ⟨none, fun gap' rest _ => ?_⟩
        obtain ⟨fault, hfault⟩ := toOption_eq_none_iff.mp (hkey rest)
        rw [objectText_append, oneOf_object, hfault]
        rfl
      | some name =>
        have hfound (rest : List UInt8) := toOption_eq_some_iff.mp (hkey rest)
        cases hconstant : constant known name with
        | error fault =>
          refine ⟨none, fun gap' rest _ => ?_⟩
          rw [objectText_append, oneOf_object, hfound]
          simp [Except.bind, hconstant]
        | ok x =>
          obtain ⟨outcome, houtcome⟩ := exists_unit hvalues.1 name x ms
          refine ⟨outcome, fun gap' rest _ => ?_⟩
          rw [objectText_append, oneOf_object, hfound, ← houtcome rest]
          simp [Except.bind, hconstant]

/-- A value that is neither a text nor an object is no constant. -/
theorem settles_oneOf_other {text : List UInt8} {b : UInt8} {tail : List UInt8}
    (htext : text = b :: tail) (hblank : isBlank b = false) (hquote : b ≠ '"'.toUInt8)
    (hbrace : b ≠ '\x7b'.toUInt8) (depth : Nat) : Settles (oneOf known depth) text none := by
  intro gap rest _
  rw [oneOf, gap.dropBlank, htext, List.cons_append, dropBlank_cons hblank]
  simp [hquote, hbrace]

theorem settled_oneOf (depth : Nat) : Settled (oneOf known depth) := by
  intro text htext
  cases htext with
  | string h =>
    obtain ⟨name, hname⟩ := exists_names h
    exact ⟨_, settles_oneOf_string known hname depth⟩
  | object gap hkeys h => exact exists_oneOf_object known depth gap hkeys h
  | unsigned h =>
    obtain ⟨b, tail, htext, hb⟩ := h.exists_cons
    exact ⟨none, settles_oneOf_other known htext (isBlank_of_isDigit hb)
      (ne_of_isDigit hb (by decide)) (ne_of_isDigit hb (by decide)) depth⟩
  | _ => exact ⟨none, settles_oneOf_other known rfl (by decide) (by decide) (by decide) depth⟩

end OneOf

end SearchGateway.Json
