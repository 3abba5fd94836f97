/-
  SearchGateway.Proofs.RecordEdits

  Changes to the text of an object that do not change the record read from it.  The members may come
  in any order; members with unknown names may come and go, and so may `null` members of fields that
  `null` leaves as they are; and the value of a member may change to one that its field reads alike.
-/
import SearchGateway.Proofs.RecordText
import Mathlib.Data.List.Find
import Mathlib.Data.List.Pairwise
import Mathlib.Logic.Relation

namespace SearchGateway.Json

variable {α σ : Type}

/-! ## The order of effects -/

/-- Two members that set different fields may come in either order. -/
def Effect.Commutes : Effect σ → Effect σ → Prop
  | .sets name set, .sets name' set' => name = name' ∨ ∀ x, set (set' x) = set' (set x)
  | _, _ => True

namespace Shape

variable {shape : Shape σ}

/-- Only which names have been set matters, not in which order. -/
theorem gather_congr {effects : List (Effect σ)} {seen seen' : List String}
    (h : ∀ name, seen.contains name = seen'.contains name) (x : σ) :
    shape.gather effects seen x = shape.gather effects seen' x := by
  induction effects generalizing seen seen' x with
  | nil =>
    have hmissing : shape.missing? seen = shape.missing? seen' := by simp only [missing?, h]
    rw [gather, gather, hmissing]
  | cons effect effects ih =>
    cases effect with
    | fails => rfl
    | idle => exact ih h x
    | sets name set =>
      have hseen : ∀ other, (name :: seen).contains other = (name :: seen').contains other := by
        intro other
        rw [List.contains_cons, List.contains_cons, h]
      simp only [gather, Effect.run, h, ih hseen]

theorem gather_swap {first second : Effect σ} (h : first.Commutes second)
    (effects : List (Effect σ)) (seen : List String) (x : σ) :
    shape.gather (first :: second :: effects) seen x =
      shape.gather (second :: first :: effects) seen x := by
  cases first with
  | fails => cases second <;> simp [gather, Effect.run]
  | idle => cases second <;> rfl
  | sets name set =>
    cases second with
    | fails => simp [gather, Effect.run]
    | idle => rfl
    | sets name' set' =>
      have hcontains : ∀ other, (name' :: name :: seen).contains other =
          (name :: name' :: seen).contains other := by
        intro other
        simp only [List.contains_cons, ← Bool.or_assoc, Bool.or_comm (other == name')]
      rcases h with rfl | hset
      · -- the second of two members with one name is refused
        simp [gather, Effect.run]
      · simp only [gather, Effect.run, hset, gather_congr hcontains]
        by_cases hname : name = name'
        · subst hname
          simp
        · have hname' : ¬ name' = name := fun heq => hname heq.symm
          simp only [List.contains_cons, beq_eq_false_iff_ne.mpr hname,
            beq_eq_false_iff_ne.mpr hname', Bool.false_or]
          split <;> split <;> rfl

/-- Members that do not get into each other's way may come in any order. -/
theorem gather_perm {effects effects' : List (Effect σ)} (h : effects.Perm effects')
    (hcommute : ∀ first ∈ effects, ∀ second ∈ effects, first.Commutes second)
    (seen : List String) (x : σ) :
    shape.gather effects seen x = shape.gather effects' seen x := by
  induction h generalizing seen x with
  | nil => rfl
  | cons effect h ih =>
    have htail := ih fun first hfirst second hsecond =>
      hcommute first (List.mem_cons_of_mem _ hfirst) second (List.mem_cons_of_mem _ hsecond)
    rw [gather, gather, funext fun seen => funext fun x => htail seen x]
  | swap first second effects =>
    exact gather_swap (hcommute second List.mem_cons_self first (by simp)) effects seen x
  | trans h _ ih ih' =>
    rw [ih hcommute]
    exact ih' (fun first hfirst second hsecond => hcommute first (h.mem_iff.mpr hfirst) second
      (h.mem_iff.mpr hsecond)) seen x

/-- A name that no member sets, and that is not required, may count as set. -/
theorem gather_cons_seen {name : String} {effects : List (Effect σ)}
    (hfresh : ∀ set, .sets name set ∉ effects)
    (hrequired : ∀ field ∈ shape.fields, field.name = name → field.required = false)
    (seen : List String) (x : σ) :
    shape.gather effects (name :: seen) x = shape.gather effects seen x := by
  induction effects generalizing seen x with
  | nil =>
    have hmissing : shape.missing? (name :: seen) = shape.missing? seen := by
      refine List.find?_congr fun field hfield => ?_
      by_cases hname : field.name = name
      · simp [hrequired field hfield hname]
      · simp [hname]
    rw [gather, gather, hmissing]
  | cons effect effects ih =>
    have hbehind := ih fun set hset => hfresh set (List.mem_cons_of_mem _ hset)
    cases effect with
    | fails => rfl
    | idle => exact hbehind seen x
    | sets other set =>
      have hne : (other == name) = false := by
        refine beq_eq_false_iff_ne.mpr ?_
        rintro rfl
        exact hfresh set List.mem_cons_self
      have hcontains : ∀ name', (other :: name :: seen).contains name' =
          (name :: other :: seen).contains name' := by
        intro name'
        simp only [List.contains_cons, ← Bool.or_assoc, Bool.or_comm (name' == other)]
      simp only [gather, Effect.run, List.contains_cons, hne, Bool.false_or,
        gather_congr hcontains, hbehind]

end Shape

/-! ## Fields that do not get into each other's way -/

/-- What a field can do to a record. -/
def Field.Produces (field : Field σ) (set : σ → σ) : Prop :=
  ∃ depth text, Settles (field.read depth) text (some set)

theorem Field.Produces.of_optional {name : String} {read : Nat → Reader α} {set : α → σ → σ}
    {result : σ → σ} (h : (Field.optional name read set).Produces result) :
    ∃ x, result = set x := by
  obtain ⟨depth, text, hsettles⟩ := h
  have hread := toOption_eq_some_iff.mp (hsettles .none delimited_nil)
  obtain ⟨x, -, hx⟩ := exists_of_map_pair hread
  exact ⟨x, hx.symm⟩

theorem Field.Produces.of_mandatory {name : String} {read : Nat → Reader α} {set : α → σ → σ}
    {result : σ → σ} (h : (Field.mandatory name read set).Produces result) :
    ∃ x, result = set x := by
  -- whether a field has to be there makes no difference to how it is read
  have hoptional : (Field.optional name read set).Produces result := h
  exact hoptional.of_optional

/-- Whatever a field does to a record is done by one setter. -/
def Field.SetsBy (field : Field σ) (set : α → σ → σ) : Prop :=
  ∀ result, field.Produces result → ∃ x, result = set x

theorem Field.SetsBy.optional {name : String} {read : Nat → Reader α} {set : α → σ → σ} :
    (Field.optional name read set).SetsBy set := fun _ h => h.of_optional

theorem Field.SetsBy.mandatory {name : String} {read : Nat → Reader α} {set : α → σ → σ} :
    (Field.mandatory name read set).SetsBy set := fun _ h => h.of_mandatory

/-- It makes no difference which of two fields is set first. -/
def Field.Commutes (field field' : Field σ) : Prop :=
  ∀ set set', field.Produces set → field'.Produces set' → ∀ x, set (set' x) = set' (set x)

instance : Std.Symm (@Field.Commutes σ) where
  symm _ _ h set set' hset hset' x := (h set' set hset' hset x).symm

/-- Two fields whose setters write to different parts of a record. -/
theorem Field.SetsBy.commutes {field field' : Field σ} {set : α → σ → σ} {set' : β → σ → σ}
    (h : field.SetsBy set) (h' : field'.SetsBy set')
    (hsets : ∀ x y s, set x (set' y s) = set' y (set x s)) : field.Commutes field' := by
  intro result result' hresult hresult' s
  obtain ⟨x, rfl⟩ := h result hresult
  obtain ⟨y, rfl⟩ := h' result' hresult'
  exact hsets x y s

namespace Shape

variable {shape : Shape σ}

/-- Different fields of a record do not undo or hide what the others do. -/
def Independent (shape : Shape σ) : Prop :=
  ∀ field ∈ shape.fields, ∀ field' ∈ shape.fields, field.name ≠ field'.name →
    ∀ set set', field.Produces set → field'.Produces set' → ∀ x, set (set' x) = set' (set x)

theorem independent_of_pairwise (h : shape.fields.Pairwise Field.Commutes) :
    shape.Independent := by
  intro field hfield field' hfield' hname
  exact h.forall hfield hfield' fun heq => hname (heq ▸ rfl)

theorem mem_of_field? {name : String} {field : Field σ} (h : shape.field? name = some field) :
    field ∈ shape.fields ∧ field.name = name :=
  ⟨List.mem_of_find?_eq_some h, by simpa using List.find?_some h⟩

theorem field?_eq_none_iff {name : String} :
    shape.field? name = none ↔ name ∉ shape.fields.map Field.name := by
  simp [field?, List.find?_eq_none]

theorem HasEffect.exists_field {depth : Nat} {m : Member} {name : String} {set : σ → σ}
    (h : shape.HasEffect depth m (.sets name set)) : Names m.key.text (some name) ∧
      ∃ field ∈ shape.fields, field.name = name ∧ field.Produces set := by
  cases h with
  | known hname hfield hvalue =>
    obtain ⟨hmem, heq⟩ := mem_of_field? hfield
    exact ⟨hname, _, hmem, heq, depth, _, hvalue⟩

theorem HasEffect.exists_of_mem {depth : Nat} {ms : List Member} {effects : List (Effect σ)}
    (h : List.Forall₂ (shape.HasEffect depth) ms effects) {effect : Effect σ}
    (hmem : effect ∈ effects) : ∃ m ∈ ms, shape.HasEffect depth m effect := by
  induction h with
  | nil => exact absurd hmem List.not_mem_nil
  | @cons m effect' ms effects hm _ ih =>
    rcases List.mem_cons.mp hmem with rfl | hmem
    · exact ⟨m, List.mem_cons_self, hm⟩
    · obtain ⟨m', hm', heffect⟩ := ih hmem
      exact ⟨m', List.mem_cons_of_mem m hm', heffect⟩

theorem HasEffect.commutes (hindependent : shape.Independent) {depth : Nat} {m m' : Member}
    {first second : Effect σ} (hfirst : shape.HasEffect depth m first)
    (hsecond : shape.HasEffect depth m' second) : first.Commutes second := by
  cases first with
  | fails => trivial
  | idle => trivial
  | sets name set =>
    cases second with
    | fails => trivial
    | idle => trivial
    | sets name' set' =>
      obtain ⟨-, field, hfield, rfl, hset⟩ := hfirst.exists_field
      obtain ⟨-, field', hfield', rfl, hset'⟩ := hsecond.exists_field
      by_cases hname : field.name = field'.name
      · exact .inl hname
      · exact .inr (hindependent field hfield field' hfield' hname set set' hset hset')

end Shape

/-! ## Edits -/

/-- One change to the members of an object.  The names in `known` mean something, those in `nullable`
    may be left out when their value is `null`, and `inner` says how the value under a name may
    change. -/
inductive Edit (known nullable : List String) (inner : String → List UInt8 → List UInt8 → Prop) :
    List Member → List Member → Prop
  | order {ms ms' : List Member} (h : ms.Perm ms') : Edit known nullable inner ms ms'
  | unknown {m : Member} {name : String} (hm : m.WellFormed) (hname : Names m.key.text (some name))
      (h : name ∉ known) (ms : List Member) : Edit known nullable inner ms (m :: ms)
  | null {m : Member} {name : String} (hm : m.WellFormed) (hname : Names m.key.text (some name))
      (h : name ∈ nullable) (hnull : m.value.text = wordText "null") {ms : List Member}
      (hfresh : ∀ other ∈ ms, ¬ Names other.key.text (some name)) :
      Edit known nullable inner ms (m :: ms)
  | within {m : Member} {name : String} {text : List UInt8} (hname : Names m.key.text (some name))
      (h : inner name m.value.text text) (ms : List Member) :
      Edit known nullable inner (m :: ms) (⟨m.key, m.value.before, text, m.value.behind⟩ :: ms)

/-- Any number of changes to the members of an object, in either direction. -/
def ObjectEdits (known nullable : List String) (inner : String → List UInt8 → List UInt8 → Prop)
    (first second : List UInt8) : Prop :=
  ∃ gap ms ms', (∀ m ∈ ms, m.WellFormed) ∧ Relation.EqvGen (Edit known nullable inner) ms ms' ∧
    first = objectText gap ms ∧ second = objectText gap ms'

section Edits

variable {known nullable : List String} {inner : String → List UInt8 → List UInt8 → Prop}

theorem Edit.wellFormed_iff
    (hinner : ∀ {name first second}, inner name first second → IsValue first ∧ IsValue second)
    {ms ms' : List Member} (h : Edit known nullable inner ms ms') :
    (∀ m ∈ ms, m.WellFormed) ↔ ∀ m ∈ ms', m.WellFormed := by
  cases h with
  | order h => exact forall_congr' fun m => by rw [h.mem_iff]
  | unknown hm => simp [hm]
  | null hm => simp [hm]
  | @within m name text _ h ms =>
    obtain ⟨hfirst, hsecond⟩ := hinner h
    have hiff : m.WellFormed ↔
        Member.WellFormed ⟨m.key, m.value.before, text, m.value.behind⟩ :=
      ⟨fun hm => ⟨hm.key, hsecond⟩, fun hm => ⟨hm.key, hfirst⟩⟩
    rw [List.forall_mem_cons, List.forall_mem_cons, hiff]

theorem wellFormed_iff_of_edits
    (hinner : ∀ {name first second}, inner name first second → IsValue first ∧ IsValue second)
    {ms ms' : List Member} (h : Relation.EqvGen (Edit known nullable inner) ms ms') :
    (∀ m ∈ ms, m.WellFormed) ↔ ∀ m ∈ ms', m.WellFormed := by
  induction h with
  | rel ms ms' hedit => exact hedit.wellFormed_iff hinner
  | refl ms => exact .rfl
  | symm ms ms' _ ih => exact ih.symm
  | trans ms ms' ms'' _ _ ih ih' => exact ih.trans ih'

/-- A record that bears the changes: its fields are settled and do not get into each other's way,
    `null` leaves the nullable ones as they are, and changed values read alike. -/
structure Shape.Bears (shape : Shape σ) (nullable : List String)
    (inner : String → List UInt8 → List UInt8 → Prop) : Prop where
  settled : ∀ field ∈ shape.fields, ∀ depth, Settled (field.read depth)
  independent : shape.Independent
  null : ∀ name ∈ nullable, ∃ field, shape.field? name = some field ∧
    (∀ other ∈ shape.fields, other.name = name → other.required = false) ∧
    ∀ depth, ∃ set : σ → σ, Settles (field.read depth) (wordText "null") (some set) ∧
      set shape.initial = shape.initial
  values : ∀ {name first second}, inner name first second → IsValue first ∧ IsValue second
  alike : ∀ {name first second field}, inner name first second → shape.field? name = some field →
    ∀ depth, Alike (field.read depth) first second

/-- A member whose value changes to one that reads alike has the same effect. -/
theorem Shape.Bears.exists_within {shape : Shape σ} (hshape : shape.Bears nullable inner)
    {m : Member} {name : String} {text : List UInt8} (hname : Names m.key.text (some name))
    (h : inner name m.value.text text) (depth : Nat) : ∃ effect,
      shape.HasEffect depth m effect ∧
      shape.HasEffect depth ⟨m.key, m.value.before, text, m.value.behind⟩ effect := by
  cases hfield : shape.field? name with
  | none => exact ⟨.idle, .unknown hname hfield, .unknown hname hfield⟩
  | some field =>
    obtain ⟨outcome, hfirst, hsecond⟩ := hshape.alike h hfield depth
    cases outcome with
    | none => exact ⟨.fails, .refused hname hfield hfirst, .refused hname hfield hsecond⟩
    | some set => exact ⟨.sets name set, .known hname hfield hfirst, .known hname hfield hsecond⟩

/-- One change to the members leaves the record that is read the same. -/
theorem Shape.Bears.gather_edit {shape : Shape σ} (hshape : shape.Bears nullable inner)
    {ms ms' : List Member} (h : Edit (shape.fields.map Field.name) nullable inner ms ms')
    (hms : ∀ m ∈ ms, m.WellFormed) (depth : Nat) : ∃ effects effects',
      List.Forall₂ (shape.HasEffect depth) ms effects ∧
      List.Forall₂ (shape.HasEffect depth) ms' effects' ∧
      shape.gather effects [] shape.initial = shape.gather effects' [] shape.initial := by
  have hsettled : ∀ field ∈ shape.fields, Settled (field.read depth) := fun field hfield =>
    hshape.settled field hfield depth
  have hms' := (h.wellFormed_iff hshape.values).mp hms
  cases h with
  | order h =>
    -- the effects are put in order along with their members
    obtain ⟨effects', heffects'⟩ := Shape.exists_effects hsettled hms'
    obtain ⟨effects, heffects, hperm⟩ := List.perm_comp_forall₂ h heffects'
    refine ⟨effects, effects', heffects, heffects', Shape.gather_perm hperm ?_ [] shape.initial⟩
    intro first hfirst second hsecond
    obtain ⟨m, -, hm⟩ := Shape.HasEffect.exists_of_mem heffects hfirst
    obtain ⟨m', -, hm'⟩ := Shape.HasEffect.exists_of_mem heffects hsecond
    exact hm.commutes hshape.independent hm'
  | @unknown m _ _ hname hunknown =>
    obtain ⟨effects, heffects⟩ := Shape.exists_effects hsettled hms
    -- a name without a field has its value passed over
    have hidle : shape.HasEffect depth m .idle :=
      .unknown hname (Shape.field?_eq_none_iff.mpr hunknown)
    exact ⟨effects, .idle :: effects, heffects, .cons hidle heffects, rfl⟩
  | @null m name _ hname hnullable hnull ms hfresh =>
    obtain ⟨effects, heffects⟩ := Shape.exists_effects hsettled hms
    obtain ⟨field, hfield, hrequired, hset⟩ := hshape.null name hnullable
    obtain ⟨set, hread, hinitial⟩ := hset depth
    have hknown : shape.HasEffect depth m (.sets name set) := .known hname hfield (hnull ▸ hread)
    refine ⟨effects, .sets name set :: effects, heffects, .cons hknown heffects, ?_⟩
    -- no other member sets the field, and the field is left as it was
    have hnew : ∀ set', .sets name set' ∉ effects := fun set' hmem => by
      obtain ⟨other, hother, heffect⟩ := Shape.HasEffect.exists_of_mem heffects hmem
      exact hfresh other hother heffect.exists_field.1
    have hseen := Shape.gather_cons_seen hnew hrequired [] shape.initial
    rw [Shape.gather, Effect.run, hinitial, hseen]
    rfl
  | within hname hinner ms =>
    rw [List.forall_mem_cons] at hms
    obtain ⟨effect, hfirst, hsecond⟩ := hshape.exists_within hname hinner depth
    obtain ⟨effects, heffects⟩ := Shape.exists_effects hsettled hms.2
    exact ⟨effect :: effects, effect :: effects, .cons hfirst heffects, .cons hsecond heffects, rfl⟩

theorem Shape.Bears.alike_edit {shape : Shape σ} (hshape : shape.Bears nullable inner)
    {ms ms' : List Member} (h : Edit (shape.fields.map Field.name) nullable inner ms ms')
    (hms : ∀ m ∈ ms, m.WellFormed) (gap : Blanks) (depth : Nat) :
    Alike (shape.read depth) (objectText gap ms) (objectText gap ms') := by
  cases depth with
  | zero => exact ⟨none, Shape.settles_read_zero gap ms, Shape.settles_read_zero gap ms'⟩
  | succ depth =>
    obtain ⟨effects, effects', heffects, heffects', hgather⟩ := hshape.gather_edit h hms depth
    have hms' := (h.wellFormed_iff hshape.values).mp hms
    exact ⟨_, Shape.settles_read heffects hms gap,
      hgather ▸ Shape.settles_read heffects' hms' gap⟩

/-- Objects whose members differ by any number of changes are read as the same record. -/
theorem Shape.Bears.alike_objects {shape : Shape σ} (hshape : shape.Bears nullable inner)
    (hne : shape.fields ≠ []) {first second : List UInt8}
    (h : ObjectEdits (shape.fields.map Field.name) nullable inner first second) (depth : Nat) :
    Alike (shape.read depth) first second := by
  obtain ⟨gap, ms, ms', hms, hedits, rfl, rfl⟩ := h
  induction hedits with
  | rel ms ms' hedit => exact hshape.alike_edit hedit hms gap depth
  | refl ms => exact (Shape.settled_read hne hshape.settled depth).alike (.of_members gap hms)
  | symm ms ms' hedits ih =>
    have hms := (wellFormed_iff_of_edits hshape.values hedits).mpr hms
    exact (ih hms).symm
  | trans ms ms' ms'' hedits _ ih ih' =>
    have hms' := (wellFormed_iff_of_edits hshape.values hedits).mp hms
    exact (ih hms).trans (ih' hms')

/-- Both objects are values. -/
theorem ObjectEdits.isValue
    (hinner : ∀ {name first second}, inner name first second → IsValue first ∧ IsValue second)
    {first second : List UInt8} (h : ObjectEdits known nullable inner first second) :
    IsValue first ∧ IsValue second := by
  obtain ⟨gap, ms, ms', hms, hedits, rfl, rfl⟩ := h
  have hms' := (wellFormed_iff_of_edits hinner hedits).mp hms
  exact ⟨.of_members gap hms, .of_members gap hms'⟩

end Edits

/-! ## Lists -/

/-- An item of an array that is the same or differs by a change. -/
structure ItemEdit (edit : List UInt8 → List UInt8 → Prop) (part part' : Spaced) : Prop where
  before : part'.before = part.before
  behind : part'.behind = part.behind
  text : edit part.text part'.text ∨ IsValue part.text ∧ part'.text = part.text

/-- Arrays whose items are the same or differ by a change, each at its place. -/
def ListEdits (edit : List UInt8 → List UInt8 → Prop) (first second : List UInt8) : Prop :=
  ∃ gap parts parts', first = arrayText gap parts ∧ second = arrayText gap parts' ∧
    List.Forall₂ (ItemEdit edit) parts parts'

section ListEdits

variable {edit : List UInt8 → List UInt8 → Prop}
  (hedit : ∀ {first second}, edit first second → IsValue first ∧ IsValue second)
include hedit

theorem ItemEdit.isValue {part part' : Spaced} (h : ItemEdit edit part part') :
    IsValue part.text ∧ IsValue part'.text := by
  rcases h.text with hchange | ⟨hvalue, heq⟩
  · exact hedit hchange
  · exact ⟨hvalue, heq ▸ hvalue⟩

theorem isValue_of_forall₂ {parts parts' : List Spaced}
    (h : List.Forall₂ (ItemEdit edit) parts parts') :
    (∀ part ∈ parts, IsValue part.text) ∧ ∀ part ∈ parts', IsValue part.text := by
  induction h with
  | nil => simp
  | cons hpart _ ih =>
    obtain ⟨hvalue, hvalue'⟩ := hpart.isValue hedit
    exact ⟨List.forall_mem_cons.mpr ⟨hvalue, ih.1⟩, List.forall_mem_cons.mpr ⟨hvalue', ih.2⟩⟩

theorem ListEdits.isValue {first second : List UInt8} (h : ListEdits edit first second) :
    IsValue first ∧ IsValue second := by
  obtain ⟨gap, parts, parts', rfl, rfl, hparts⟩ := h
  obtain ⟨hvalues, hvalues'⟩ := isValue_of_forall₂ hedit hparts
  exact ⟨.array gap hvalues, .array gap hvalues'⟩

theorem ItemEdit.alike {reader : Reader α} (hsettled : Settled reader)
    (halike : ∀ {first second}, edit first second → Alike reader first second)
    {part part' : Spaced} (h : ItemEdit edit part part') :
    Alike reader part.text part'.text := by
  have hvalue := (h.isValue hedit).1
  rcases h.text with hchange | ⟨-, heq⟩
  · exact halike hchange
  · rw [heq]
    exact hsettled.alike hvalue

/-- Lists read alike when the changes of their items do. -/
theorem ListEdits.alike {item : Nat → Reader α} (hsettled : ∀ depth, Settled (item depth))
    (hitem : ∀ {first second}, edit first second → ∀ depth, Alike (item depth) first second)
    {first second : List UInt8} (h : ListEdits edit first second) (depth : Nat) :
    Alike (list item depth) first second := by
  obtain ⟨gap, parts, parts', rfl, rfl, hparts⟩ := h
  obtain ⟨hvalues, hvalues'⟩ := isValue_of_forall₂ hedit hparts
  refine Alike.list hvalues hvalues' (fun depth => hparts.imp fun part part' hpart => ?_) depth
  exact hpart.alike hedit (hsettled depth) fun hchange => hitem hchange depth

/-- Records written as arrays read alike when the changes of their items do. -/
theorem ListEdits.alike_record {shape : Shape σ} (hne : shape.fields ≠ [])
    (hsettled : ∀ field ∈ shape.fields, ∀ depth, Settled (field.read depth))
    (hitem : ∀ {first second}, edit first second → ∀ field ∈ shape.fields, ∀ depth,
      Alike (field.read depth) first second)
    {first second : List UInt8} (h : ListEdits edit first second) (depth : Nat) :
    Alike (shape.read depth) first second := by
  obtain ⟨gap, parts, parts', rfl, rfl, hparts⟩ := h
  obtain ⟨hvalues, hvalues'⟩ := isValue_of_forall₂ hedit hparts
  refine Shape.alike_arrays hne hvalues hvalues' (fun depth => hparts.imp ?_) depth
  intro part part' hpart field hfield
  exact hpart.alike hedit (hsettled field hfield depth) fun hchange =>
    hitem hchange field hfield depth

end ListEdits

/-! ## Fields -/

namespace Field

variable {name : String} {read : Nat → Reader α} {set : α → σ → σ} {depth : Nat}

theorem settles_optional {text : List UInt8} {outcome : Option α}
    (h : Settles (read depth) text outcome) :
    Settles ((Field.optional name read set).read depth) text (outcome.map set) := by
  intro gap rest hrest
  rw [Field.optional, toOption_map, h gap hrest, Option.map_map, Option.map_map]
  rfl

/-- A field with an optional value takes `null` for none. -/
theorem settles_null {reader : Nat → Reader α} {assign : Option α → σ → σ} :
    Settles ((Field.optional name (fun depth => Json.optional (reader depth)) assign).read depth)
      (wordText "null") (some (assign none)) := by
  have hnull := settles_optional_null (reader depth)
  intro gap rest hrest
  rw [Field.optional, toOption_map, hnull gap hrest]
  rfl

theorem settled_optional (h : Settled (read depth)) :
    Settled ((Field.optional name read set).read depth) := by
  intro text htext
  obtain ⟨outcome, houtcome⟩ := h text htext
  exact ⟨_, settles_optional houtcome⟩

theorem settled_mandatory (h : Settled (read depth)) :
    Settled ((Field.mandatory name read set).read depth) := by
  -- whether a field has to be there makes no difference to how it is read
  have hoptional : Settled ((Field.optional name read set).read depth) := settled_optional h
  exact hoptional

theorem alike_optional {first second : List UInt8} (h : Alike (read depth) first second) :
    Alike ((Field.optional name read set).read depth) first second := by
  obtain ⟨outcome, hfirst, hsecond⟩ := h
  exact ⟨_, settles_optional hfirst, settles_optional hsecond⟩

end Field

/-! ## Whole texts -/

/-- A text that holds one value between blanks is read as the value is. -/
theorem Settles.toOption_read {reader : Nat → Reader α} {text : List UInt8} {outcome : Option α}
    (h : Settles (reader maxDepth) text outcome) (before behind : Blanks) :
    (Json.read reader (before.val ++ (text ++ behind.val))).toOption = outcome := by
  have hbehind := behind.delimited delimited_nil
  have hdrop := behind.dropBlank []
  rw [List.append_nil] at hbehind hdrop
  have hread := h before hbehind
  rw [Json.read]
  cases outcome with
  | none =>
    obtain ⟨fault, hfault⟩ := toOption_eq_none_iff.mp hread
    rw [hfault]
    rfl
  | some x =>
    rw [toOption_eq_some_iff.mp hread]
    simp only [hdrop]
    rfl

end SearchGateway.Json
