/-
  SearchGateway.Proofs.RawPredicates

  Predicates and their raw forms.  A raw form gives a predicate when the values that
  its operator takes are there and are scalars; only their texts go into the
  predicate, and nothing else in the raw form has a say.
-/
import Mathlib.Data.List.Forall2
import SearchGateway.Proofs.Decimals
import SearchGateway.Query.Predicate

namespace SearchGateway.Query

open SearchGateway.Json (IsDecimal Value)

/-! ## Scalars -/

/-- A text, a number or a truth value. -/
inductive IsScalar : Value → Prop
  | text (s : String) : IsScalar (.string s)
  | number (n : Json.Number) : IsScalar (.number n)
  | bool (b : Bool) : IsScalar (.bool b)

/-- The text of a scalar: a text is its own, an integer has its decimal text, any other number the
    one that is written for it, and a truth value its word. -/
inductive Spells : Value → String → Prop
  | text (s : String) : Spells (.string s) s
  | integer {n : Int} {text : String} (decimal : IsDecimal text n) : Spells (.ofInt n) text
  | double (x : Json.Double) : Spells (.number (.double x)) (String.ofList x.text)
  | yes : Spells (.bool true) "true"
  | no : Spells (.bool false) "false"

theorem scalarText_eq_ok_iff {v : Value} {text : String} :
    scalarText v = .ok text ↔ Spells v text := by
  constructor
  · intro h
    cases v with
    | string s =>
      obtain rfl := Except.ok.inj h
      exact .text s
    | number n =>
      obtain rfl := Except.ok.inj h
      cases n with
      | int n => exact .integer (Json.isDecimal_iff.mpr rfl)
      | double x => exact .double x
    | bool b =>
      cases b with
      | true =>
        obtain rfl := Except.ok.inj h
        exact .yes
      | false =>
        obtain rfl := Except.ok.inj h
        exact .no
    | _ => exact nomatch h
  · intro h
    cases h with
    | integer decimal =>
      rw [Json.isDecimal_iff.mp decimal]
      rfl
    | _ => rfl

theorem exists_spells_iff {v : Value} : (∃ text, Spells v text) ↔ IsScalar v := by
  simp only [← scalarText_eq_ok_iff]
  constructor
  · rintro ⟨text, h⟩
    cases v with
    | string s => exact .text s
    | number n => exact .number n
    | bool b => exact .bool b
    | _ => exact nomatch h
  · intro h
    cases h with
    | text s => exact ⟨s, rfl⟩
    | number n => exact ⟨String.ofList n.text, rfl⟩
    | bool b => cases b <;> exact ⟨_, rfl⟩

theorem mapM_scalarText_eq_ok_iff {vs : List Value} {texts : List String} :
    vs.mapM scalarText = .ok texts ↔ List.Forall₂ Spells vs texts := by
  induction vs generalizing texts with
  | nil => cases texts <;> simp [pure, Except.pure]
  | cons v vs ih =>
    rw [List.mapM_cons]
    -- a value that has no text settles both sides, whatever the texts are
    cases hv : scalarText v with
    | error e => cases texts <;> simp [bind, Except.bind, ← scalarText_eq_ok_iff, hv]
    | ok text =>
      cases hvs : vs.mapM scalarText with
      | error e => cases texts <;> simp [bind, Except.bind, ← ih, hvs]
      | ok rest =>
        cases texts <;>
          simp [bind, Except.bind, pure, Except.pure, ← ih, hvs, ← scalarText_eq_ok_iff, hv]

theorem exists_forall₂_spells_iff {vs : List Value} :
    (∃ texts, List.Forall₂ Spells vs texts) ↔ ∀ v ∈ vs, IsScalar v := by
  induction vs with
  | nil => exact iff_of_true ⟨[], .nil⟩ fun _ h => absurd h List.not_mem_nil
  | cons v vs ih =>
    rw [List.forall_mem_cons, ← ih, ← exists_spells_iff]
    constructor
    · rintro ⟨_, _ | ⟨hv, hvs⟩⟩
      exact ⟨⟨_, hv⟩, _, hvs⟩
    · rintro ⟨⟨text, hv⟩, texts, hvs⟩
      exact ⟨text :: texts, .cons hv hvs⟩

/-! ## Conversion -/

/-- The values that an operator takes. -/
def Operator.parts : Operator → List RawPart
  | .compare _ => [.value]
  | .member _ => [.values]
  | .presence _ => [.value]
  | .between => [.value, .highValue]

namespace RawPredicate

/-- The values that the operator takes are there, a value of a presence operator apart, and they are
    scalars. -/
def Fits (raw : RawPredicate) : Prop :=
  match raw.operator with
  | .compare _ => ∃ v, raw.value = some v ∧ IsScalar v
  | .member _ => ∃ vs, raw.values = some vs ∧ ∀ v ∈ vs, IsScalar v
  | .presence _ => raw.value = none ∨ ∃ v, raw.value = some v ∧ IsScalar v
  | .between => (∃ v, raw.value = some v ∧ IsScalar v) ∧ ∃ v, raw.highValue = some v ∧ IsScalar v

/-- The condition of a raw predicate: its operator with the texts of the values that it takes. -/
inductive Converts (raw : RawPredicate) : Condition → Prop
  | compare {c : Comparison} {v : Value} {text : String} (names : raw.operator = .compare c)
      (given : raw.value = some v) (spells : Spells v text) : Converts raw (.compare c text)
  | member {m : Membership} {vs : List Value} {texts : List String}
      (names : raw.operator = .member m) (given : raw.values = some vs)
      (spells : List.Forall₂ Spells vs texts) : Converts raw (.member m texts)
  | bare {p : Presence} (names : raw.operator = .presence p) (absent : raw.value = none) :
      Converts raw (.presence p none)
  | presence {p : Presence} {v : Value} {text : String} (names : raw.operator = .presence p)
      (given : raw.value = some v) (spells : Spells v text) : Converts raw (.presence p (some text))
  | between {low high : Value} {lowText highText : String} (names : raw.operator = .between)
      (given : raw.value = some low) (givenHigh : raw.highValue = some high)
      (spells : Spells low lowText) (spellsHigh : Spells high highText) :
      Converts raw (.between lowText highText)

theorem Converts.operator {raw : RawPredicate} {condition : Condition}
    (h : raw.Converts condition) : condition.operator = raw.operator := by
  cases h with
  | _ => simp only [Condition.operator, *]

theorem Converts.condition? {raw : RawPredicate} {condition : Condition}
    (h : raw.Converts condition) : raw.condition? = .ok condition := by
  obtain ⟨property, operator, value, values, highValue⟩ := raw
  cases h with
  | compare names given spells =>
    obtain rfl := names
    obtain rfl := given
    simp only [RawPredicate.condition?, made?, require, bind, Except.bind,
      scalarText_eq_ok_iff.mpr spells]
    rfl
  | member names given spells =>
    obtain rfl := names
    obtain rfl := given
    simp only [RawPredicate.condition?, made?, require, bind, Except.bind,
      mapM_scalarText_eq_ok_iff.mpr spells]
    rfl
  | bare names absent =>
    obtain rfl := names
    obtain rfl := absent
    rfl
  | presence names given spells =>
    obtain rfl := names
    obtain rfl := given
    simp only [RawPredicate.condition?, made?, scalarText_eq_ok_iff.mpr spells]
    rfl
  | between names given givenHigh spells spellsHigh =>
    obtain rfl := names
    obtain rfl := given
    obtain rfl := givenHigh
    simp only [RawPredicate.condition?, made?, require, bind, Except.bind,
      scalarText_eq_ok_iff.mpr spells, scalarText_eq_ok_iff.mpr spellsHigh]
    rfl

theorem eq_some_of_require {α : Type} {raw : RawPredicate} {part : RawPart} {found : Option α}
    {x : α} (h : raw.require part found = .ok x) : found = some x := by
  cases found with
  | none => exact nomatch h
  | some y => exact congrArg some (Except.ok.inj h)

/-- Why a raw predicate is refused: a value that its operator takes is missing, or a value is no
    scalar. -/
inductive Refuses (raw : RawPredicate) : PredicateError → Prop
  | missing {part : RawPart} (takes : part ∈ raw.operator.parts) :
      Refuses raw (.missing raw.operator raw.property part)
  | notScalar {v : Value} (compound : ¬ IsScalar v) : Refuses raw (.notScalar v)

namespace Refuses

variable {raw : RawPredicate} {e : PredicateError}

theorem of_require {α : Type} {part : RawPart} {found : Option α}
    (takes : part ∈ raw.operator.parts) (h : raw.require part found = .error e) :
    raw.Refuses e := by
  cases found with
  | none =>
    obtain rfl := Except.error.inj h
    exact .missing takes
  | some x => exact nomatch h

theorem of_scalarText {v : Value} (h : scalarText v = .error e) : raw.Refuses e := by
  have hcompound : ¬ IsScalar v := fun hscalar => by
    obtain ⟨text, hspells⟩ := exists_spells_iff.mpr hscalar
    rw [scalarText_eq_ok_iff.mpr hspells] at h
    exact nomatch h
  cases v with
  | string s => exact absurd (.text s) hcompound
  | number n => exact absurd (.number n) hcompound
  | bool b => exact absurd (.bool b) hcompound
  | _ =>
    obtain rfl := Except.error.inj h
    exact .notScalar hcompound

theorem of_mapM {vs : List Value} (h : vs.mapM scalarText = .error e) : raw.Refuses e := by
  induction vs with
  | nil => exact nomatch h
  | cons v vs ih =>
    rw [List.mapM_cons] at h
    cases hv : scalarText v with
    | error e' =>
      rw [hv] at h
      obtain rfl := Except.error.inj h
      exact .of_scalarText hv
    | ok text =>
      rw [hv] at h
      cases hvs : vs.mapM scalarText with
      | error e' =>
        rw [hvs] at h
        obtain rfl := Except.error.inj h
        exact ih hvs
      | ok texts =>
        rw [hvs] at h
        exact nomatch h

end Refuses

/-- What making a condition of a raw predicate comes to: its condition, or a reason to refuse it.
    An operator that makes no condition of its values is not among them. -/
inductive Attempt (raw : RawPredicate) : Except PredicateError (Option Condition) → Prop
  | made {condition : Condition} (converts : raw.Converts condition) :
      Attempt raw (.ok (some condition))
  | refused {e : PredicateError} (refuses : raw.Refuses e) : Attempt raw (.error e)

theorem Attempt.bind {α : Type} {raw : RawPredicate} {x : Except PredicateError α}
    {f : α → Except PredicateError (Option Condition)}
    (hrefused : ∀ e, x = .error e → raw.Refuses e) (h : ∀ a, x = .ok a → raw.Attempt (f a)) :
    raw.Attempt (x >>= f) := by
  cases x with
  | error e => exact .refused (hrefused e rfl)
  | ok a => exact h a rfl

theorem attempt_made? (raw : RawPredicate) : raw.Attempt raw.made? := by
  unfold made?
  -- lists come first, then bounds, then presence; a comparison is what is left
  split
  · rename_i m hop
    have htakes : RawPart.values ∈ raw.operator.parts := hop ▸ List.mem_cons_self
    refine .bind (fun _ => .of_require htakes) fun vs hvs => ?_
    refine .bind (fun _ => .of_mapM) fun texts htexts => ?_
    exact .made (.member hop (eq_some_of_require hvs) (mapM_scalarText_eq_ok_iff.mp htexts))
  · rename_i hop
    have htakes : ∀ part ∈ Operator.between.parts, part ∈ raw.operator.parts :=
      fun part hpart => hop ▸ hpart
    refine .bind (fun _ => .of_require (htakes _ List.mem_cons_self)) fun low hlow => ?_
    refine .bind (fun _ => .of_require (htakes _ (List.mem_cons_of_mem _ List.mem_cons_self)))
      fun high hhigh => ?_
    refine .bind (fun _ => .of_scalarText) fun lowText hlowText => ?_
    refine .bind (fun _ => .of_scalarText) fun highText hhighText => ?_
    exact .made (.between hop (eq_some_of_require hlow) (eq_some_of_require hhigh)
      (scalarText_eq_ok_iff.mp hlowText) (scalarText_eq_ok_iff.mp hhighText))
  · rename_i p hop
    split
    · rename_i habsent
      exact .made (.bare hop habsent)
    · rename_i v hv
      cases htext : scalarText v with
      | error e => exact .refused (.of_scalarText htext)
      | ok text => exact .made (.presence hop hv (scalarText_eq_ok_iff.mp htext))
  · rename_i c hop
    have htakes : RawPart.value ∈ raw.operator.parts := hop ▸ List.mem_cons_self
    refine .bind (fun _ => .of_require htakes) fun v hv => ?_
    refine .bind (fun _ => .of_scalarText) fun text htext => ?_
    exact .made (.compare hop (eq_some_of_require hv) (scalarText_eq_ok_iff.mp htext))

theorem converts_of_condition? {raw : RawPredicate} {condition : Condition}
    (h : raw.condition? = .ok condition) : raw.Converts condition := by
  have hattempt := raw.attempt_made?
  unfold RawPredicate.condition? at h
  generalize raw.made? = made at h hattempt
  cases hattempt with
  | made converts =>
    obtain rfl := Except.ok.inj h
    exact converts
  | refused refuses => exact nomatch h

/-- A raw predicate is refused for a value that its operator takes, never for its operator. -/
theorem refuses_of_condition? {raw : RawPredicate} {e : PredicateError}
    (h : raw.condition? = .error e) : raw.Refuses e := by
  have hattempt := raw.attempt_made?
  unfold RawPredicate.condition? at h
  generalize raw.made? = made at h hattempt
  cases hattempt with
  | made converts => exact nomatch h
  | refused refuses =>
    obtain rfl := Except.error.inj h
    exact refuses

theorem condition?_ne_invalidOperator (raw : RawPredicate) (property : String) :
    raw.condition? ≠ .error (.invalidOperator property) := by
  intro h
  cases refuses_of_condition? h

theorem toPredicate?_eq_ok_iff {raw : RawPredicate} {p : Predicate} :
    raw.toPredicate? = .ok p ↔ p.property = raw.property ∧ raw.Converts p.condition := by
  obtain ⟨property, condition⟩ := p
  unfold toPredicate?
  constructor
  · intro h
    cases hcondition : raw.condition? with
    | error e =>
      rw [hcondition] at h
      exact nomatch h
    | ok found =>
      rw [hcondition] at h
      obtain ⟨rfl, rfl⟩ := Predicate.mk.inj (Except.ok.inj h)
      exact ⟨rfl, converts_of_condition? hcondition⟩
  · rintro ⟨rfl, hcondition⟩
    rw [hcondition.condition?]
    rfl

/-- A condition can be made exactly when the raw predicate fits its operator. -/
theorem exists_converts_iff {raw : RawPredicate} :
    (∃ condition, raw.Converts condition) ↔ raw.Fits := by
  unfold Fits
  constructor
  · rintro ⟨condition, h⟩
    cases h with
    | compare names given spells =>
      rw [names]
      exact ⟨_, given, exists_spells_iff.mp ⟨_, spells⟩⟩
    | member names given spells =>
      rw [names]
      exact ⟨_, given, exists_forall₂_spells_iff.mp ⟨_, spells⟩⟩
    | bare names absent =>
      rw [names]
      exact .inl absent
    | presence names given spells =>
      rw [names]
      exact .inr ⟨_, given, exists_spells_iff.mp ⟨_, spells⟩⟩
    | between names given givenHigh spells spellsHigh =>
      rw [names]
      exact ⟨⟨_, given, exists_spells_iff.mp ⟨_, spells⟩⟩,
        ⟨_, givenHigh, exists_spells_iff.mp ⟨_, spellsHigh⟩⟩⟩
  · intro h
    split at h
    · rename_i names
      obtain ⟨v, given, hscalar⟩ := h
      obtain ⟨text, spells⟩ := exists_spells_iff.mpr hscalar
      exact ⟨_, .compare names given spells⟩
    · rename_i names
      obtain ⟨vs, given, hscalars⟩ := h
      obtain ⟨texts, spells⟩ := exists_forall₂_spells_iff.mpr hscalars
      exact ⟨_, .member names given spells⟩
    · rename_i names
      rcases h with absent | ⟨v, given, hscalar⟩
      · exact ⟨_, .bare names absent⟩
      · obtain ⟨text, spells⟩ := exists_spells_iff.mpr hscalar
        exact ⟨_, .presence names given spells⟩
    · rename_i names
      obtain ⟨⟨low, given, hlow⟩, high, givenHigh, hhigh⟩ := h
      obtain ⟨lowText, spells⟩ := exists_spells_iff.mpr hlow
      obtain ⟨highText, spellsHigh⟩ := exists_spells_iff.mpr hhigh
      exact ⟨_, .between names given givenHigh spells spellsHigh⟩

theorem exists_toPredicate?_iff {raw : RawPredicate} :
    (∃ p, raw.toPredicate? = .ok p) ↔ raw.Fits := by
  rw [← exists_converts_iff]
  constructor
  · rintro ⟨p, h⟩
    exact ⟨p.condition, (toPredicate?_eq_ok_iff.mp h).2⟩
  · rintro ⟨condition, h⟩
    exact ⟨⟨raw.property, condition⟩, toPredicate?_eq_ok_iff.mpr ⟨rfl, h⟩⟩

/-! ## The way back -/

/-- A scalar written out as its text. -/
def SpelledOut (v w : Value) : Prop :=
  ∃ text, Spells v text ∧ w = .string text

/-- A raw predicate written out anew: the values that the operator takes as texts, and no others. -/
structure RestatedBy (raw back : RawPredicate) : Prop where
  property : back.property = raw.property
  operator : back.operator = raw.operator
  value : if .value ∈ raw.operator.parts then Option.Rel SpelledOut raw.value back.value
    else back.value = none
  values : if .values ∈ raw.operator.parts then
      Option.Rel (List.Forall₂ SpelledOut) raw.values back.values
    else back.values = none
  highValue : if .highValue ∈ raw.operator.parts then
      Option.Rel SpelledOut raw.highValue back.highValue
    else back.highValue = none

theorem forall₂_spelledOut {vs : List Value} {texts : List String}
    (h : List.Forall₂ Spells vs texts) : List.Forall₂ SpelledOut vs (texts.map .string) := by
  rw [List.forall₂_map_right_iff]
  exact h.imp fun _ text hspells => ⟨text, hspells, rfl⟩

theorem Converts.restatedBy {raw : RawPredicate} {p : Predicate}
    (hproperty : p.property = raw.property) (h : raw.Converts p.condition) :
    raw.RestatedBy p.toRaw := by
  obtain ⟨property, operator, value, values, highValue⟩ := raw
  obtain ⟨_, condition⟩ := p
  obtain rfl := hproperty
  cases h with
  | compare names given spells =>
    obtain rfl := names
    obtain rfl := given
    exact ⟨rfl, rfl, .some ⟨_, spells, rfl⟩, rfl, rfl⟩
  | member names given spells =>
    obtain rfl := names
    obtain rfl := given
    exact ⟨rfl, rfl, rfl, .some (forall₂_spelledOut spells), rfl⟩
  | bare names absent =>
    obtain rfl := names
    obtain rfl := absent
    exact ⟨rfl, rfl, .none, rfl, rfl⟩
  | presence names given spells =>
    obtain rfl := names
    obtain rfl := given
    exact ⟨rfl, rfl, .some ⟨_, spells, rfl⟩, rfl, rfl⟩
  | between names given givenHigh spells spellsHigh =>
    obtain rfl := names
    obtain rfl := given
    obtain rfl := givenHigh
    exact ⟨rfl, rfl, .some ⟨_, spells, rfl⟩, rfl, .some ⟨_, spellsHigh, rfl⟩⟩

end RawPredicate

/-- The raw form of a predicate holds the texts of its condition. -/
theorem Predicate.converts_toRaw (p : Predicate) : p.toRaw.Converts p.condition := by
  obtain ⟨property, condition⟩ := p
  cases condition with
  | compare c value => exact .compare rfl rfl (.text value)
  | member m values =>
    refine .member rfl rfl ?_
    rw [List.forall₂_map_left_iff, List.forall₂_same]
    exact fun value _ => .text value
  | presence p value =>
    cases value with
    | none => exact .bare rfl rfl
    | some value => exact .presence rfl rfl (.text value)
  | between low high => exact .between rfl rfl rfl (.text low) (.text high)

/-- The raw form of a predicate is converted to the predicate. -/
theorem Predicate.toPredicate?_toRaw (p : Predicate) : p.toRaw.toPredicate? = .ok p := by
  rw [RawPredicate.toPredicate?_eq_ok_iff]
  refine ⟨?_, p.converts_toRaw⟩
  obtain ⟨property, condition⟩ := p
  cases condition <;> rfl

namespace RawPredicate

/-! ## Raw predicates that are alike -/

/-- A value and the same value, or the text that stands for it where it is an integer or a truth
    value. -/
inductive Rewords : Value → Value → Prop
  | same (v : Value) : Rewords v v
  | integer {n : Int} {text : String} (decimal : IsDecimal text n) :
      Rewords (.ofInt n) (.string text)
  | yes : Rewords (.bool true) (.string "true")
  | no : Rewords (.bool false) (.string "false")

/-- Raw predicates that differ at most in values that the operator does not take and in the wording
    of those that it takes. -/
structure Alike (raw other : RawPredicate) : Prop where
  property : other.property = raw.property
  operator : other.operator = raw.operator
  value : .value ∈ raw.operator.parts → Option.Rel Rewords raw.value other.value
  values : .values ∈ raw.operator.parts →
    Option.Rel (List.Forall₂ Rewords) raw.values other.values
  highValue : .highValue ∈ raw.operator.parts → Option.Rel Rewords raw.highValue other.highValue

theorem Rewords.scalarText {v w : Value} (h : Rewords v w) : scalarText w = scalarText v := by
  cases h with
  | integer decimal =>
    rw [Json.isDecimal_iff.mp decimal]
    rfl
  | _ => rfl

theorem mapM_scalarText_rewords {vs ws : List Value} (h : List.Forall₂ Rewords vs ws) :
    ws.mapM scalarText = vs.mapM scalarText := by
  induction h with
  | nil => rfl
  | cons hv _ ih => rw [List.mapM_cons, List.mapM_cons, hv.scalarText, ih]

theorem Alike.condition? {raw other : RawPredicate} (h : raw.Alike other) :
    other.condition? = raw.condition? := by
  obtain ⟨_, _, value, values, highValue⟩ := raw
  obtain ⟨property, operator, value', values', highValue'⟩ := other
  obtain ⟨rfl, rfl, hvalue, hvalues, hhighValue⟩ := h
  -- only the values that the operator takes are related; the others are never looked at
  dsimp only at hvalue hvalues hhighValue
  cases operator with
  | compare c =>
    cases hvalue List.mem_cons_self with
    | none => rfl
    | some hv =>
      simp only [RawPredicate.condition?, made?, require, bind, Except.bind, hv.scalarText]
  | member m =>
    cases hvalues List.mem_cons_self with
    | none => rfl
    | some hvs =>
      simp only [RawPredicate.condition?, made?, require, bind, Except.bind,
        mapM_scalarText_rewords hvs]
  | presence p =>
    cases hvalue List.mem_cons_self with
    | none => rfl
    | some hv => simp only [RawPredicate.condition?, made?, hv.scalarText]
  | between =>
    -- a bound that is missing is reported before the texts of the bounds are made
    cases hvalue List.mem_cons_self with
    | none => rfl
    | some hlow =>
      cases hhighValue (List.mem_cons_of_mem _ List.mem_cons_self) with
      | none => rfl
      | some hhigh =>
        simp only [RawPredicate.condition?, made?, require, bind, Except.bind, hlow.scalarText,
          hhigh.scalarText]

theorem Alike.toPredicate? {raw other : RawPredicate} (h : raw.Alike other) :
    other.toPredicate? = raw.toPredicate? := by
  rw [RawPredicate.toPredicate?, RawPredicate.toPredicate?, h.condition?, h.property]

/-- A raw predicate gives a predicate exactly when the values that its operator takes are there and
    are scalars.  The predicate has its property and its operator, and the texts of those values.
    Its own raw form holds these texts and nothing else, and gives the predicate again.  Values that
    the operator does not take make no difference, nor does it matter whether an integer or a truth
    value stands as such or as its text. -/
theorem toPredicate?_converts (raw : RawPredicate) :
    ((∃ p, raw.toPredicate? = .ok p) ↔ raw.Fits) ∧
      (∀ p, raw.toPredicate? = .ok p ↔ p.property = raw.property ∧ raw.Converts p.condition) ∧
      (∀ p, raw.toPredicate? = .ok p →
        p.operator = raw.operator ∧ raw.RestatedBy p.toRaw ∧ p.toRaw.toPredicate? = .ok p) ∧
      ∀ other, raw.Alike other → other.toPredicate? = raw.toPredicate? := by
  refine ⟨exists_toPredicate?_iff, fun p => toPredicate?_eq_ok_iff, fun p h => ?_,
    fun other h => h.toPredicate?⟩
  obtain ⟨hproperty, hconverts⟩ := toPredicate?_eq_ok_iff.mp h
  exact ⟨hconverts.operator, hconverts.restatedBy hproperty, p.toPredicate?_toRaw⟩

end RawPredicate

end SearchGateway.Query
