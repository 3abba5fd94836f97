/-
  SearchGateway.Proofs.RecordParts

  What a record says, part by part.  A record is read from a text exactly when every field
  finds its name at most once among the parts and can read the part that it finds; a field
  that finds none keeps its default, unless the field is required.
-/
import SearchGateway.Proofs.AcceptedText
import SearchGateway.Proofs.RecordEdits
import Mathlib.Data.List.Nodup

namespace SearchGateway.Json

variable {α σ : Type}

/-! ## Parts -/

/-- A part of a record as it is written: a name and the text of a value. -/
abbrev Part := String × List UInt8

/-- A member of an object is a part of the record. -/
structure Member.IsPart (m : Member) (part : Part) : Prop where
  wellFormed : m.WellFormed
  name : Unescapes m.key.text (Text.Utf8.ofString part.1)
  text : m.value.text = part.2

/-- The parts that a text lists: the members of an object, or the items of an array under the names
    of the first fields. -/
inductive ListsParts (names : List String) : List UInt8 → List Part → Prop
  | object (gap : Blanks) {ms : List Member} {parts : List Part}
      (h : List.Forall₂ Member.IsPart ms parts) : ListsParts names (objectText gap ms) parts
  | array (gap : Blanks) {items : List Spaced} (hvalues : ∀ item ∈ items, IsValue item.text)
      (hlength : items.length ≤ names.length) :
      ListsParts names (arrayText gap items) (names.zip (items.map Spaced.text))

/-- The texts of the parts with a name. -/
def textsOf (name : String) (parts : List Part) : List (List UInt8) :=
  parts.filterMap fun part => if part.1 = name then some part.2 else none

@[simp] theorem textsOf_nil (name : String) : textsOf name [] = [] := rfl

@[simp] theorem textsOf_cons_self (name : String) (text : List UInt8) (parts : List Part) :
    textsOf name ((name, text) :: parts) = text :: textsOf name parts := by
  simp [textsOf]

@[simp] theorem textsOf_cons_of_ne {name other : String} (h : other ≠ name) (text : List UInt8)
    (parts : List Part) : textsOf name ((other, text) :: parts) = textsOf name parts := by
  simp [textsOf, h]

theorem mem_textsOf {name : String} {text : List UInt8} {parts : List Part} :
    text ∈ textsOf name parts ↔ (name, text) ∈ parts := by
  simp [textsOf]

/-- Each of the second list is related to one of the first. -/
theorem exists_of_mem_right {β : Type} {related : α → β → Prop} {xs : List α} {ys : List β}
    (h : List.Forall₂ related xs ys) {y : β} (hy : y ∈ ys) : ∃ x ∈ xs, related x y := by
  induction h with
  | nil => exact absurd hy List.not_mem_nil
  | @cons x y' xs ys hx _ ih =>
    rcases List.mem_cons.mp hy with rfl | hy
    · exact ⟨x, List.mem_cons_self, hx⟩
    · obtain ⟨x', hx', hrelated⟩ := ih hy
      exact ⟨x', List.mem_cons_of_mem x hx', hrelated⟩

/-- Every part of a record is a value. -/
theorem ListsParts.isValue {names : List String} {text : List UInt8} {parts : List Part}
    (h : ListsParts names text parts) {name : String} {value : List UInt8}
    (hvalue : value ∈ textsOf name parts) : IsValue value := by
  rw [mem_textsOf] at hvalue
  cases h with
  | object gap hms =>
    obtain ⟨m, -, hm⟩ := exists_of_mem_right hms hvalue
    have htext : IsValue m.value.text := hm.wellFormed.value
    rwa [hm.text] at htext
  | array gap hvalues =>
    obtain ⟨item, hitem, rfl⟩ := List.mem_map.mp (List.of_mem_zip hvalue).2
    exact hvalues item hitem

/-- A reader takes a text for a value. -/
def IsReadAs (reader : Reader α) (text : List UInt8) (x : α) : Prop :=
  Settles reader text (some x)

/-- What parts give for a name: the value of the only part with the name, or the default where there
    is no such part. -/
inductive Gives (reads : List UInt8 → α → Prop) (name : String) (default : α) (parts : List Part) :
    α → Prop
  | default (h : textsOf name parts = []) : Gives reads name default parts default
  | part {text : List UInt8} {x : α} (h : textsOf name parts = [text]) (read : reads text x) :
      Gives reads name default parts x

/-- What is given holds what the default and everything that is read hold. -/
theorem Gives.holds {reads : List UInt8 → α → Prop} {name : String} {default : α}
    {parts : List Part} {x : α} (h : Gives reads name default parts x) {p : α → Prop}
    (hdefault : p default) (hreads : ∀ text x, reads text x → p x) : p x := by
  cases h with
  | default => exact hdefault
  | part _ read => exact hreads _ _ read

theorem Gives.eq_default {reads : List UInt8 → α → Prop} {name : String} {default : α}
    {parts : List Part} {x : α} (h : Gives reads name default parts x)
    (hnone : textsOf name parts = []) : x = default := by
  cases h with
  | default => rfl
  | part hone =>
    rw [hnone] at hone
    cases hone

theorem Gives.exists_part {reads : List UInt8 → α → Prop} {name : String} {default : α}
    {parts : List Part} {x : α} (h : Gives reads name default parts x)
    (hsome : textsOf name parts ≠ []) : ∃ text, textsOf name parts = [text] ∧ reads text x := by
  cases h with
  | default hnone => exact absurd hnone hsome
  | part hone read => exact ⟨_, hone, read⟩

/-- What a reader makes of parts is one thing at most. -/
theorem Gives.unique {reader : Reader α} {name : String} {default : α} {parts : List Part} {x y : α}
    (hx : Gives (IsReadAs reader) name default parts x)
    (hy : Gives (IsReadAs reader) name default parts y) : x = y := by
  cases hx with
  | default h => exact (hy.eq_default h).symm
  | part h read =>
    cases hy with
    | default h' =>
      rw [h] at h'
      cases h'
    | part h' read' =>
      obtain rfl := (List.cons.inj (h.symm.trans h')).1
      exact Option.some.inj (Settles.unique read read')

/-- What is given by one way of reading is given by another that reads the same. -/
theorem Gives.imp {reads reads' : List UInt8 → α → Prop} {name : String} {default : α}
    {parts : List Part} {x : α} (h : Gives reads name default parts x)
    (hreads : ∀ text ∈ textsOf name parts, ∀ x, reads text x → reads' text x) :
    Gives reads' name default parts x := by
  cases h with
  | default h => exact .default h
  | part h read => exact .part h (hreads _ (by simp [h]) _ read)

theorem Gives.congr_iff {reads reads' : List UInt8 → α → Prop} {name : String} {default : α}
    {parts : List Part} {x : α}
    (hreads : ∀ text ∈ textsOf name parts, ∀ x, reads text x ↔ reads' text x) :
    Gives reads name default parts x ↔ Gives reads' name default parts x :=
  ⟨fun h => h.imp fun text htext x => (hreads text htext x).mp,
    fun h => h.imp fun text htext x => (hreads text htext x).mpr⟩

/-- Parts with other names do not matter. -/
theorem Gives.cons_of_ne {reads : List UInt8 → α → Prop} {name other : String} {default : α}
    {parts : List Part} {x : α} (h : Gives reads name default parts x) (hne : other ≠ name)
    (text : List UInt8) : Gives reads name default ((other, text) :: parts) x := by
  cases h with
  | default h => exact .default (by rw [textsOf_cons_of_ne hne, h])
  | part h read => exact .part (by rw [textsOf_cons_of_ne hne, h]) read

/-! ## Taking parts -/

/-- The record that parts make of another one.  Each part with a known name sets its field, and no
    later part may have the name. -/
inductive Shape.Takes (shape : Shape σ) (depth : Nat) : List Part → σ → σ → Prop
  | done (x : σ) : shape.Takes depth [] x x
  | unknown {name : String} {text : List UInt8} {parts : List Part} {x y : σ}
      (hfield : shape.field? name = none) (h : shape.Takes depth parts x y) :
      shape.Takes depth ((name, text) :: parts) x y
  | known {name : String} {field : Field σ} {text : List UInt8} {set : σ → σ} {parts : List Part}
      {x y : σ} (hfield : shape.field? name = some field)
      (hread : IsReadAs (field.read depth) text set) (hfresh : textsOf name parts = [])
      (h : shape.Takes depth parts (set x) y) : shape.Takes depth ((name, text) :: parts) x y

/-- The name of a field is not among the parts, or it is there once and the field reads the part. -/
def Field.Admits (field : Field σ) (depth : Nat) (parts : List Part) : Prop :=
  textsOf field.name parts = [] ∨
    ∃ text set, textsOf field.name parts = [text] ∧ IsReadAs (field.read depth) text set

/-- A field does not change what the record holds at a place. -/
def Field.Leaves (field : Field σ) (get : σ → α) : Prop :=
  ∀ set, field.Produces set → ∀ x, get (set x) = get x

theorem Field.Leaves.optional {β : Type} {name : String} {read : Nat → Reader β}
    {write : β → σ → σ} {get : σ → α} (h : ∀ y x, get (write y x) = get x) :
    (Field.optional name read write).Leaves get := by
  intro set hset x
  obtain ⟨y, rfl⟩ := hset.of_optional
  exact h y x

theorem Field.Leaves.mandatory {β : Type} {name : String} {read : Nat → Reader β}
    {write : β → σ → σ} {get : σ → α} (h : ∀ y x, get (write y x) = get x) :
    (Field.mandatory name read write).Leaves get := by
  intro set hset x
  obtain ⟨y, rfl⟩ := hset.of_mandatory
  exact h y x

namespace Shape

variable {shape : Shape σ} {depth : Nat}

/-- Parts that every field admits are taken. -/
theorem exists_takes_of_admits {parts : List Part}
    (h : ∀ field ∈ shape.fields, field.Admits depth parts) (x : σ) :
    ∃ y, shape.Takes depth parts x y := by
  induction parts generalizing x with
  | nil => exact ⟨x, .done x⟩
  | cons part parts ih =>
    obtain ⟨name, text⟩ := part
    have htail : ∀ field ∈ shape.fields, field.Admits depth parts := by
      intro field hfield
      by_cases hname : name = field.name
      · subst hname
        have hadmits := h field hfield
        rw [Field.Admits, textsOf_cons_self] at hadmits
        rcases hadmits with hnil | ⟨text', set, hone, -⟩
        · cases hnil
        · exact .inl (List.cons.inj hone).2
      · have hadmits := h field hfield
        rwa [Field.Admits, textsOf_cons_of_ne hname] at hadmits
    cases hfield : shape.field? name with
    | none =>
      obtain ⟨y, hy⟩ := ih htail x
      exact ⟨y, .unknown hfield hy⟩
    | some field =>
      obtain ⟨hmem, rfl⟩ := mem_of_field? hfield
      have hadmits := h field hmem
      rw [Field.Admits, textsOf_cons_self] at hadmits
      rcases hadmits with hnil | ⟨text', set, hone, hread⟩
      · cases hnil
      · obtain ⟨rfl, hfresh⟩ := List.cons.inj hone
        obtain ⟨y, hy⟩ := ih htail (set x)
        exact ⟨y, .known hfield hread hfresh hy⟩

/-! ## Objects -/

theorem missing?_isNone_iff {seen : List String} : (shape.missing? seen).isNone = true ↔
    ∀ field ∈ shape.fields, field.required = true → field.name ∈ seen := by
  rw [Option.isNone_iff_eq_none]
  refine ⟨fun h field hfield hrequired => ?_, missing?_eq_none⟩
  have hseen := List.find?_eq_none.mp h field hfield
  simpa [hrequired] using hseen

/-- The members that make up parts that are taken make the same record. -/
theorem Takes.exists_effects {parts : List Part} {x y : σ} (h : shape.Takes depth parts x y)
    {ms : List Member} (hms : List.Forall₂ Member.IsPart ms parts) {seen : List String}
    (hseen : ∀ part ∈ parts, part.1 ∉ seen)
    (hrequired : ∀ field ∈ shape.fields, field.required = true →
      field.name ∈ seen ∨ textsOf field.name parts ≠ []) :
    ∃ effects, List.Forall₂ (shape.HasEffect depth) ms effects ∧
      shape.gather effects seen x = some y := by
  induction h generalizing ms seen with
  | done x =>
    cases hms
    have hnone : (shape.missing? seen).isNone = true := missing?_isNone_iff.mpr
      fun field hfield h => (hrequired field hfield h).resolve_right fun hne => hne rfl
    exact ⟨[], .nil, if_pos hnone⟩
  | @unknown name text parts x y hfield h ih =>
    rw [List.forall_mem_cons] at hseen
    have hrequired' : ∀ field ∈ shape.fields, field.required = true →
        field.name ∈ seen ∨ textsOf field.name parts ≠ [] := by
      intro field hmem h
      have hne : name ≠ field.name := by
        rintro rfl
        exact field?_eq_none_iff.mp hfield (List.mem_map_of_mem hmem)
      have hfound := hrequired field hmem h
      rwa [textsOf_cons_of_ne hne] at hfound
    cases hms with
    | cons hm hms =>
      obtain ⟨effects, heffects, hgather⟩ := ih hms hseen.2 hrequired'
      exact ⟨.idle :: effects, .cons (.unknown (names_iff.mpr hm.name) hfield) heffects, hgather⟩
  | @known name field text set parts x y hfield hread hfresh h ih =>
    rw [List.forall_mem_cons] at hseen
    cases hms with
    | cons hm hms =>
      have hseen' : ∀ part ∈ parts, part.1 ∉ name :: seen := by
        intro part hpart hmem
        rcases List.mem_cons.mp hmem with heq | hmem
        · subst heq
          have htext : part.2 ∈ textsOf part.1 parts := mem_textsOf.mpr hpart
          rw [hfresh] at htext
          exact absurd htext List.not_mem_nil
        · exact hseen.2 part hpart hmem
      -- the name of the part moves from the names that are left to those that have been seen
      have hrequired' : ∀ field ∈ shape.fields, field.required = true →
          field.name ∈ name :: seen ∨ textsOf field.name parts ≠ [] := by
        intro other hother h
        by_cases hname : name = other.name
        · exact .inl (hname ▸ List.mem_cons_self)
        · have hfound := hrequired other hother h
          rw [textsOf_cons_of_ne hname] at hfound
          exact hfound.imp_left (List.mem_cons_of_mem name)
      obtain ⟨effects, heffects, hgather⟩ := ih hms hseen' hrequired'
      have hset : shape.HasEffect depth _ (.sets name set) :=
        .known (names_iff.mpr hm.name) hfield (hm.text ▸ hread)
      refine ⟨.sets name set :: effects, .cons hset heffects, ?_⟩
      have hnew : seen.contains name = false := by simpa using hseen.1
      rw [gather, Effect.run, hnew, if_neg Bool.false_ne_true, hgather]

/-- Members that make a record make up parts that are taken. -/
theorem exists_takes_of_gather {ms : List Member} {effects : List (Effect σ)}
    (h : List.Forall₂ (shape.HasEffect depth) ms effects) (hms : ∀ m ∈ ms, m.WellFormed)
    {seen : List String} {x y : σ} (hgather : shape.gather effects seen x = some y) :
    ∃ parts, List.Forall₂ Member.IsPart ms parts ∧ shape.Takes depth parts x y ∧
      (∀ part ∈ parts, (shape.field? part.1).isSome → part.1 ∉ seen) ∧
      ∀ field ∈ shape.fields, field.required = true →
        field.name ∈ seen ∨ textsOf field.name parts ≠ [] := by
  have hcons {name : String} {field : Field σ} {text : List UInt8} {parts : List Part}
      (h : textsOf field.name parts ≠ []) : textsOf field.name ((name, text) :: parts) ≠ [] := by
    by_cases hname : name = field.name
    · rw [hname, textsOf_cons_self]
      exact List.cons_ne_nil _ _
    · rwa [textsOf_cons_of_ne hname]
  induction h generalizing seen x with
  | nil =>
    rw [gather] at hgather
    split at hgather
    · rename_i hnone
      obtain rfl := Option.some.inj hgather
      exact ⟨[], .nil, .done x, fun _ hm => absurd hm List.not_mem_nil,
        fun field hfield h => .inl (missing?_isNone_iff.mp hnone field hfield h)⟩
    · cases hgather
  | @cons m effect ms effects hm hms' ih =>
    rw [List.forall_mem_cons] at hms
    cases hm with
    | unreadable => cases hgather
    | refused => cases hgather
    | @unknown name hname hfield =>
      obtain ⟨parts, hparts, htakes, hseen, hrequired⟩ := ih hms.2 hgather
      refine ⟨(name, m.value.text) :: parts, .cons ⟨hms.1, names_iff.mp hname, rfl⟩ hparts,
        .unknown hfield htakes, List.forall_mem_cons.mpr ⟨fun hsome => ?_, hseen⟩,
        fun field hmem h => (hrequired field hmem h).imp_right hcons⟩
      rw [hfield] at hsome
      cases hsome
    | @known name field set hname hfield hvalue =>
      rw [gather, Effect.run] at hgather
      split at hgather
      · cases hgather
      · rename_i hnew
        obtain ⟨parts, hparts, htakes, hseen, hrequired⟩ := ih hms.2 hgather
        have hfresh : textsOf name parts = [] := by
          rw [textsOf, List.filterMap_eq_nil_iff]
          intro part hpart
          refine if_neg fun heq => ?_
          subst heq
          exact hseen part hpart (by rw [hfield]; rfl) List.mem_cons_self
        refine ⟨(name, m.value.text) :: parts, .cons ⟨hms.1, names_iff.mp hname, rfl⟩ hparts,
          .known hfield hvalue hfresh htakes, List.forall_mem_cons.mpr ⟨fun _ => ?_, ?_⟩,
          fun other hother h => ?_⟩
        · simpa using hnew
        · exact fun part hpart hsome hmem =>
            hseen part hpart hsome (List.mem_cons_of_mem name hmem)
        · rcases hrequired other hother h with hmem | hfound
          · rcases List.mem_cons.mp hmem with hname | hmem
            · exact .inr (by rw [hname, textsOf_cons_self]; exact List.cons_ne_nil _ _)
            · exact .inl hmem
          · exact .inr (hcons hfound)

/-! ## Arrays -/

/-- A record whose fields have different names, and each of them takes or refuses a value by the
    value alone. -/
structure Regular (shape : Shape σ) : Prop where
  settled : ∀ field ∈ shape.fields, ∀ depth, Settled (field.read depth)
  nodup : (shape.fields.map Field.name).Nodup
  ne : shape.fields ≠ []

/-- A record of which every field may be left out. -/
structure Lenient (shape : Shape σ) : Prop extends Regular shape where
  optional : ∀ field ∈ shape.fields, field.required = false

/-- No required field of a record is missing among parts. -/
def IsComplete (shape : Shape σ) (parts : List Part) : Prop :=
  ∀ field ∈ shape.fields, field.required = true → textsOf field.name parts ≠ []

theorem Lenient.isComplete (h : shape.Lenient) (parts : List Part) : shape.IsComplete parts :=
  fun field hfield hrequired => by
    rw [h.optional field hfield] at hrequired
    cases hrequired

theorem Regular.field?_name (h : shape.Regular) {field : Field σ} (hfield : field ∈ shape.fields) :
    shape.field? field.name = some field := by
  cases hfound : shape.field? field.name with
  | none => exact absurd (List.mem_map_of_mem hfield) (field?_eq_none_iff.mp hfound)
  | some other =>
    obtain ⟨hother, hname⟩ := mem_of_field? hfound
    rw [List.inj_on_of_nodup_map h.nodup hother hfield hname]

theorem takes_nil_iff {x y : σ} : shape.Takes depth [] x y ↔ x = y := by
  constructor
  · intro h
    cases h
    rfl
  · rintro rfl
    exact .done x

/-- A part with a known name sets what its field reads in it. -/
theorem takes_cons_iff {name : String} {field : Field σ} {text : List UInt8}
    {outcome : Option (σ → σ)} (hfield : shape.field? name = some field)
    (hread : Settles (field.read depth) text outcome) {parts : List Part} {x y : σ} :
    shape.Takes depth ((name, text) :: parts) x y ↔
      ∃ set, outcome = some set ∧ textsOf name parts = [] ∧ shape.Takes depth parts (set x) y := by
  constructor
  · intro h
    cases h with
    | unknown hnone =>
      rw [hfield] at hnone
      cases hnone
    | known hfield' hread' hfresh h =>
      obtain rfl := Option.some.inj (hfield.symm.trans hfield')
      exact ⟨_, hread.unique hread', hfresh, h⟩
  · rintro ⟨set, rfl, hfresh, h⟩
    exact .known hfield hread hfresh h

theorem textsOf_zip {name : String} {names : List String} (h : name ∉ names)
    (texts : List (List UInt8)) : textsOf name (names.zip texts) = [] := by
  rw [textsOf, List.filterMap_eq_nil_iff]
  rintro ⟨other, text⟩ hpart
  refine if_neg fun heq => h ?_
  obtain rfl : other = name := heq
  exact (List.of_mem_zip hpart).1

/-- The items of an array are read by the fields in order.  There are no more items than fields, and
    no field without an item is required. -/
theorem Regular.toOption_items_iff (h : shape.Regular) {fields : List (Field σ)}
    (hfields : fields <:+ shape.fields) {items : List Spaced}
    (hvalues : ∀ item ∈ items, IsValue item.text) {index : Nat} (hindex : index ≠ 0 ∨ fields ≠ [])
    {x y : σ} (gap : Blanks) (rest : List UInt8) :
    (shape.items depth fields index x (itemsAt index gap items rest)).toOption = some (y, rest) ↔
      items.length ≤ fields.length ∧
        (∀ field ∈ fields.drop items.length, field.required = false) ∧
        shape.Takes depth ((fields.map Field.name).zip (items.map Spaced.text)) x y := by
  -- the fields are taken along with the items; `index` counts the items that have been read
  induction fields generalizing items index x gap with
  | nil =>
    have hindex : index ≠ 0 := hindex.resolve_right fun hne => hne rfl
    cases items with
    | nil => simp [Shape.items, closeItems_itemsAt_nil hindex, takes_nil_iff]
    | cons item items => simp [Shape.items, closeItems_itemsAt_cons hindex]
  | cons field fields ih =>
    cases items with
    | nil =>
      have hrequired : (field :: fields).findIdx? Field.required = none ↔
          ∀ other ∈ field :: fields, other.required = false := List.findIdx?_eq_none_iff
      simp only [Shape.items, itemAhead_itemsAt_nil, List.length_nil, Nat.zero_le, true_and,
        List.drop_zero, ← hrequired, List.map_nil, List.zip_nil_right, takes_nil_iff]
      cases (field :: fields).findIdx? Field.required <;> simp
    | cons item items =>
      rw [List.forall_mem_cons] at hvalues
      have hfield : field ∈ shape.fields := hfields.subset List.mem_cons_self
      have hothers : fields <:+ shape.fields := (List.suffix_cons field fields).trans hfields
      have hnodup : ((field :: fields).map Field.name).Nodup :=
        (hfields.map Field.name).sublist.nodup h.nodup
      have hfresh : textsOf field.name ((fields.map Field.name).zip (items.map Spaced.text)) = [] :=
        textsOf_zip (List.nodup_cons.mp hnodup).1 _
      obtain ⟨outcome, hread⟩ := h.settled field hfield depth item.text hvalues.1
      have hbehind : Delimited (itemsAt (index + 1) item.behind items rest) := by
        rw [itemsAt, if_neg (Nat.succ_ne_zero index)]
        exact delimited_itemsBehind item.behind items rest
      have hitem := hread .none hbehind
      rw [Blanks.none, List.nil_append] at hitem
      rw [List.map_cons, List.map_cons, List.zip_cons_cons,
        takes_cons_iff (h.field?_name hfield) hread]
      simp only [Shape.items, itemAhead_itemsAt_cons index gap hvalues.1]
      cases outcome with
      | none =>
        obtain ⟨fault, hfault⟩ := toOption_eq_none_iff.mp hitem
        simp [hfault, under, Except.mapError]
      | some set =>
        rw [toOption_eq_some_iff.mp hitem]
        simp only [under, Except.mapError]
        rw [ih hothers hvalues.2 (.inl (Nat.succ_ne_zero index))]
        simp [hfresh]

/-- Items under the names of the first fields are complete when no field behind them is required. -/
theorem forall_textsOf_zip_iff {fields : List (Field σ)} (hnodup : (fields.map Field.name).Nodup)
    (texts : List (List UInt8)) :
    (∀ field ∈ fields, field.required = true →
        textsOf field.name ((fields.map Field.name).zip texts) ≠ []) ↔
      ∀ field ∈ fields.drop texts.length, field.required = false := by
  induction fields generalizing texts with
  | nil => simp
  | cons field fields ih =>
    cases texts with
    | nil => simp
    | cons text texts =>
      obtain ⟨hfresh, hnodup⟩ := List.nodup_cons.mp hnodup
      rw [List.map_cons, List.zip_cons_cons, List.length_cons, List.drop_succ_cons, ← ih hnodup,
        List.forall_mem_cons, textsOf_cons_self]
      refine (and_iff_right fun _ => List.cons_ne_nil _ _).trans ?_
      refine forall₂_congr fun other hother => ?_
      have hne : field.name ≠ other.name := fun heq =>
        hfresh (heq ▸ List.mem_map_of_mem hother)
      rw [textsOf_cons_of_ne hne]

theorem Regular.settled_read (h : shape.Regular) (depth : Nat) : Settled (shape.read depth) :=
  Shape.settled_read h.ne h.settled depth

/-- A record is read from an object when its members are parts that make the record. -/
theorem Regular.isReadAs_object_iff (h : shape.Regular) {gap : Blanks} {ms : List Member}
    (hms : ∀ m ∈ ms, m.WellFormed) {y : σ} :
    IsReadAs (shape.read (depth + 1)) (objectText gap ms) y ↔
      ∃ parts, List.Forall₂ Member.IsPart ms parts ∧ shape.IsComplete parts ∧
        shape.Takes depth parts shape.initial y := by
  constructor
  · intro hread
    obtain ⟨effects, heffects⟩ :=
      exists_effects (fun field hfield => h.settled field hfield depth) hms
    have hgather := (settles_read heffects hms gap).unique hread
    obtain ⟨parts, hparts, htakes, -, hrequired⟩ := exists_takes_of_gather heffects hms hgather
    exact ⟨parts, hparts,
      fun field hfield h => (hrequired field hfield h).resolve_left List.not_mem_nil, htakes⟩
  · rintro ⟨parts, hparts, hcomplete, htakes⟩
    obtain ⟨effects, heffects, hgather⟩ := htakes.exists_effects hparts
      (fun _ _ => List.not_mem_nil) fun field hfield h => .inr (hcomplete field hfield h)
    have hread := settles_read heffects hms gap
    rwa [hgather] at hread

/-- A record is read from an array when its items, under the names of the first fields, make the
    record. -/
theorem Regular.isReadAs_array_iff (h : shape.Regular) {gap : Blanks} {items : List Spaced}
    (hvalues : ∀ item ∈ items, IsValue item.text) {y : σ} :
    IsReadAs (shape.read (depth + 1)) (arrayText gap items) y ↔
      items.length ≤ shape.fields.length ∧
        shape.IsComplete ((shape.fields.map Field.name).zip (items.map Spaced.text)) ∧
        shape.Takes depth ((shape.fields.map Field.name).zip (items.map Spaced.text))
          shape.initial y := by
  have hitems (rest : List UInt8) :=
    @Regular.toOption_items_iff σ shape depth h shape.fields List.suffix_rfl items hvalues 0
      (.inr h.ne) shape.initial y gap rest
  have hcomplete := forall_textsOf_zip_iff h.nodup (items.map Spaced.text)
  rw [List.length_map] at hcomplete
  rw [IsComplete, hcomplete]
  have hbind := read_eq_bind shape (depth + 1)
  exact ⟨fun hread => (hitems []).mp (toOption_take_of_settles hbind hread),
    fun hparts => settles_array hbind fun rest => (hitems rest).mpr hparts⟩

/-- A text that is read as a record lists parts that make the record.  What holds of all that stands
    in the text holds of these. -/
theorem Regular.exists_parts (h : shape.Regular) {of : List UInt8 → Prop}
    (hof : ∀ text, of text → IsValue text) {text : List UInt8} (htext : Opens of text) {y : σ}
    (hread : IsReadAs (shape.read (depth + 1)) text y) :
    ∃ parts, ListsParts (shape.fields.map Field.name) text parts ∧ shape.IsComplete parts ∧
      shape.Takes depth parts shape.initial y ∧
      ∀ name, ∀ value ∈ textsOf name parts, of value := by
  cases htext with
  | scalar hfound hkind => cases (settles_read_scalar hfound hkind).unique hread
  | @array gap items hitems =>
    have hvalues : ∀ item ∈ items, IsValue item.text := fun item hitem =>
      hof item.text (hitems item hitem)
    obtain ⟨hlength, hcomplete, htakes⟩ := (h.isReadAs_array_iff hvalues).mp hread
    refine ⟨_, .array gap hvalues (by simpa using hlength), hcomplete, htakes,
      fun name value hvalue => ?_⟩
    obtain ⟨item, hitem, rfl⟩ := List.mem_map.mp (List.of_mem_zip (mem_textsOf.mp hvalue)).2
    exact hitems item hitem
  | @object gap ms hkeys hvalues =>
    have hms : ∀ m ∈ ms, m.WellFormed := fun m hm =>
      ⟨hkeys m hm, hof m.value.text (hvalues m hm)⟩
    obtain ⟨parts, hparts, hcomplete, htakes⟩ := (h.isReadAs_object_iff hms).mp hread
    refine ⟨parts, .object gap hparts, hcomplete, htakes, fun name value hvalue => ?_⟩
    obtain ⟨m, hm, hpart⟩ := exists_of_mem_right hparts (mem_textsOf.mp hvalue)
    have hmember := hvalues m hm
    rwa [hpart.text] at hmember

/-- A record is read from a text exactly when the text lists parts that make the record, and no
    required field is missing among them. -/
theorem Regular.isReadAs_iff (h : shape.Regular) {text : List UInt8} {y : σ} :
    (IsValue text ∧ IsReadAs (shape.read (depth + 1)) text y) ↔
      ∃ parts, ListsParts (shape.fields.map Field.name) text parts ∧ shape.IsComplete parts ∧
        shape.Takes depth parts shape.initial y := by
  constructor
  · rintro ⟨htext, hread⟩
    obtain ⟨parts, hlists, hcomplete, htakes, -⟩ := h.exists_parts (fun _ => id) htext.opens hread
    exact ⟨parts, hlists, hcomplete, htakes⟩
  · rintro ⟨parts, hlists, hmakes⟩
    cases hlists with
    | @object gap ms _ hparts =>
      have hms : ∀ m ∈ ms, m.WellFormed := by
        clear hmakes
        induction hparts with
        | nil => exact fun _ hm => absurd hm List.not_mem_nil
        | cons hm _ ih => exact List.forall_mem_cons.mpr ⟨hm.wellFormed, ih⟩
      exact ⟨.of_members gap hms, (h.isReadAs_object_iff hms).mpr ⟨parts, hparts, hmakes⟩⟩
    | @array gap items hvalues hlength =>
      exact ⟨.array gap hvalues,
        (h.isReadAs_array_iff hvalues).mpr ⟨by simpa using hlength, hmakes⟩⟩

/-- Where every field may be left out, nothing is missing. -/
theorem Lenient.isReadAs_iff (h : shape.Lenient) {text : List UInt8} {y : σ} :
    (IsValue text ∧ IsReadAs (shape.read (depth + 1)) text y) ↔
      ∃ parts, ListsParts (shape.fields.map Field.name) text parts ∧
        shape.Takes depth parts shape.initial y :=
  h.toRegular.isReadAs_iff.trans <| exists_congr fun parts => and_congr_right fun _ =>
    and_iff_right (h.isComplete parts)

/-! ## What a field makes of the parts -/

/-- A field alone says what the record holds at a place. -/
structure Owns (shape : Shape σ) (name : String) (reader : Nat → Reader α) (get : σ → α) :
    Prop where
  field : ∃ set, (shape.field? name).map Field.read = some (Field.optional name reader set).read ∧
    ∀ x s, get (set x s) = x
  others : ∀ field ∈ shape.fields, field.name ≠ name → field.Leaves get

variable {name : String} {reader : Nat → Reader α} {get : σ → α}

theorem Owns.exists_read (h : shape.Owns name reader get) {field : Field σ}
    (hfield : shape.field? name = some field) : ∃ set : α → σ → σ,
      field.read = (Field.optional name reader set).read ∧ ∀ x s, get (set x s) = x := by
  obtain ⟨set, hread, hget⟩ := h.field
  rw [hfield] at hread
  exact ⟨set, Option.some.inj hread, hget⟩

/-- What the field sets is what it reads. -/
theorem Owns.isReadAs_get (h : shape.Owns name reader get) {field : Field σ}
    (hfield : shape.field? name = some field) {text : List UInt8} {set : σ → σ}
    (hread : IsReadAs (field.read depth) text set) (s : σ) :
    IsReadAs (reader depth) text (get (set s)) := by
  obtain ⟨write, hwrite, hget⟩ := h.exists_read hfield
  rw [hwrite] at hread
  intro gap rest hrest
  have hfound := toOption_eq_some_iff.mp (hread gap hrest)
  obtain ⟨x, hx, rfl⟩ := exists_of_map_pair hfound
  rw [hx, hget]
  rfl

theorem Takes.gives (h : shape.Owns name reader get) {parts : List Part} {x y : σ}
    (htakes : shape.Takes depth parts x y) :
    Gives (IsReadAs (reader depth)) name (get x) parts (get y) := by
  obtain ⟨write, hwrite, -⟩ := h.field
  induction htakes with
  | done x => exact .default rfl
  | unknown hfield _ ih =>
    refine ih.cons_of_ne ?_ _
    rintro rfl
    rw [hfield] at hwrite
    cases hwrite
  | @known other field text set parts x y hfield hread hfresh _ ih =>
    by_cases hname : other = name
    · subst hname
      rw [ih.eq_default hfresh]
      exact .part (by rw [textsOf_cons_self, hfresh]) (h.isReadAs_get hfield hread x)
    · obtain ⟨hmem, rfl⟩ := mem_of_field? hfield
      rw [h.others field hmem hname set ⟨depth, text, hread⟩] at ih
      exact ih.cons_of_ne hname text

theorem Owns.admits (h : shape.Owns name reader get) {default x : α} {parts : List Part}
    (hgives : Gives (IsReadAs (reader depth)) name default parts x) {field : Field σ}
    (hfield : shape.field? name = some field) : field.Admits depth parts := by
  obtain ⟨write, hwrite, -⟩ := h.exists_read hfield
  obtain ⟨-, rfl⟩ := mem_of_field? hfield
  cases hgives with
  | default h => exact .inl h
  | part h read => exact .inr ⟨_, write x, h, hwrite ▸ Field.settles_optional read⟩

/-- Parts make a record when every field admits them and what the fields make of them fixes the
    record. -/
theorem takes_iff {parts : List Part} {Given : σ → Prop}
    (hgiven : ∀ {y}, shape.Takes depth parts shape.initial y → Given y)
    (hadmits : ∀ {y}, Given y → ∀ field ∈ shape.fields, field.Admits depth parts)
    (hunique : ∀ {y y'}, Given y → Given y' → y = y') {y : σ} :
    shape.Takes depth parts shape.initial y ↔ Given y := by
  refine ⟨hgiven, fun h => ?_⟩
  obtain ⟨y', hy'⟩ := exists_takes_of_admits (hadmits h) shape.initial
  rwa [hunique h (hgiven hy')]

end Shape

/-! ## Lists and optional values -/

/-- A text holds a list: an array whose items are read one by one. -/
def HoldsList (reads : List UInt8 → α → Prop) (text : List UInt8) (xs : List α) : Prop :=
  ∃ gap items, text = arrayText gap items ∧
    List.Forall₂ (fun item x => IsValue item.text ∧ reads item.text x) items xs

/-- A text holds a value, or `null` in place of one. -/
inductive HoldsOption (reads : List UInt8 → α → Prop) : List UInt8 → Option α → Prop
  | null : HoldsOption reads (wordText "null") none
  | value {text : List UInt8} {x : α} (hnull : text ≠ wordText "null") (read : reads text x) :
      HoldsOption reads text (some x)

theorem HoldsOption.imp {reads reads' : List UInt8 → α → Prop} {text : List UInt8} {x : Option α}
    (h : HoldsOption reads text x) (hreads : ∀ x, reads text x → reads' text x) :
    HoldsOption reads' text x := by
  cases h with
  | null => exact .null
  | value hnull read => exact .value hnull (hreads _ read)

theorem mapM_id_eq_some_iff {outcomes : List (Option α)} {xs : List α} :
    outcomes.mapM id = some xs ↔ outcomes = xs.map some := by
  induction outcomes generalizing xs with
  | nil => cases xs <;> simp
  | cons outcome outcomes ih =>
    cases xs with
    | nil => cases outcome <;> cases hothers : outcomes.mapM id <;> simp [hothers]
    | cons x xs =>
      rw [List.map_cons, List.cons.injEq, ← ih]
      cases outcome <;> cases hothers : outcomes.mapM id <;> simp [hothers]

/-- The items of an array are read as what each of them is read as. -/
theorem toOption_arrayRest_iff {item : Reader α} (hitem : Settled item) {gap : Blanks}
    {items : List Spaced} (hvalues : ∀ part ∈ items, IsValue part.text) {xs : List α}
    {rest : List UInt8} :
    (arrayRest item (arrayInside gap items rest)).toOption = some (xs, rest) ↔
      List.Forall₂ (fun part x => IsReadAs item part.text x) items xs := by
  constructor
  · intro h
    obtain ⟨outcomes, houtcomes⟩ := hitem.exists_outcomes hvalues
    rw [toOption_arrayRest hvalues houtcomes] at h
    obtain ⟨xs', hxs, hpair⟩ := Option.map_eq_some_iff.mp h
    obtain rfl := (Prod.mk.inj hpair).1
    obtain rfl := mapM_id_eq_some_iff.mp hxs
    rwa [List.forall₂_map_right_iff] at houtcomes
  · intro h
    have houtcomes : List.Forall₂ (fun part outcome => Settles item part.text outcome) items
        (xs.map some) := List.forall₂_map_right_iff.mpr h
    rw [toOption_arrayRest hvalues houtcomes, mapM_id_eq_some_iff.mpr rfl]
    rfl

theorem isReadAs_list_array_iff {item : Nat → Reader α} {depth : Nat}
    (hitem : Settled (item depth)) {gap : Blanks} {items : List Spaced}
    (hvalues : ∀ part ∈ items, IsValue part.text) {xs : List α} :
    IsReadAs (list item (depth + 1)) (arrayText gap items) xs ↔
      List.Forall₂ (fun part x => IsReadAs (item depth) part.text x) items xs :=
  ⟨fun hread => (toOption_arrayRest_iff hitem hvalues).mp
      (toOption_take_of_settles (list_eq_bind item (depth + 1)) hread),
    fun hitems => settles_array (list_eq_bind item (depth + 1)) fun _ =>
      (toOption_arrayRest_iff hitem hvalues).mpr hitems⟩

/-- A text that is read as a list is an array.  What holds of all that stands in the text holds of
    its items. -/
theorem exists_items_of_list {item : Nat → Reader α} {depth : Nat} (hitem : Settled (item depth))
    {of : List UInt8 → Prop} (hof : ∀ text, of text → IsValue text) {text : List UInt8}
    (htext : Opens of text) {xs : List α} (hread : IsReadAs (list item (depth + 1)) text xs) :
    ∃ gap items, text = arrayText gap items ∧
      List.Forall₂ (fun part x => of part.text ∧ IsReadAs (item depth) part.text x) items xs := by
  cases htext with
  | @scalar _ found hfound hkind =>
    have hnone : Settles (list item (depth + 1)) text none := by
      refine settles_scalar (list_eq_bind item (depth + 1)) hfound (fun x hx rest => ?_) fun _ => rfl
      obtain ⟨hsequence, -⟩ := hkind x hx
      cases x with
      | sequence => exact absurd rfl hsequence
      | _ => rfl
    cases hnone.unique hread
  | @object gap ms =>
    have hnone : Settles (list item (depth + 1)) (objectText gap ms) none :=
      settles_object (list_eq_bind item (depth + 1)) fun _ => rfl
    cases hnone.unique hread
  | @array gap items hitems =>
    have hvalues : ∀ part ∈ items, IsValue part.text := fun part hpart =>
      hof part.text (hitems part hpart)
    exact ⟨gap, items, rfl, (List.forall₂_and_left _ _).mpr
      ⟨hitems, (isReadAs_list_array_iff hitem hvalues).mp hread⟩⟩

/-- A list is read from the texts that hold it. -/
theorem isReadAs_list_iff {item : Nat → Reader α} {depth : Nat} (hitem : Settled (item depth))
    {reads : List UInt8 → α → Prop}
    (hreads : ∀ {text}, IsValue text → ∀ {x}, IsReadAs (item depth) text x ↔ reads text x)
    {text : List UInt8} {xs : List α} :
    (IsValue text ∧ IsReadAs (list item (depth + 1)) text xs) ↔ HoldsList reads text xs := by
  constructor
  · rintro ⟨htext, hread⟩
    obtain ⟨gap, items, rfl, hitems⟩ :=
      exists_items_of_list hitem (fun _ => id) htext.opens hread
    exact ⟨gap, items, rfl, hitems.imp fun _ _ h => ⟨h.1, (hreads h.1).mp h.2⟩⟩
  · rintro ⟨gap, items, rfl, hitems⟩
    have hitems := hitems.imp fun _ _ h => And.intro h.1 ((hreads h.1).mpr h.2)
    obtain ⟨hvalues, hitems⟩ := (List.forall₂_and_left _ _).mp hitems
    exact ⟨.array gap hvalues, (isReadAs_list_array_iff hitem hvalues).mpr hitems⟩

/-- An optional value is read from the texts that hold it. -/
theorem isReadAs_optional_iff {reader : Reader α} (hreader : Settled reader) {text : List UInt8}
    (htext : IsValue text) {reads : List UInt8 → α → Prop}
    (hreads : ∀ {y}, IsReadAs reader text y ↔ reads text y) {x : Option α} :
    IsReadAs (optional reader) text x ↔ HoldsOption reads text x := by
  by_cases hnull : text = wordText "null"
  · subst hnull
    constructor
    · intro hread
      obtain rfl := Option.some.inj ((settles_optional_null reader).unique hread)
      exact .null
    · intro h
      cases h with
      | null => exact settles_optional_null reader
      | value hne => exact absurd rfl hne
  · obtain ⟨outcome, houtcome⟩ := hreader text htext
    have hread := houtcome.optional htext hnull
    constructor
    · intro h
      obtain ⟨y, rfl, rfl⟩ := Option.map_eq_some_iff.mp (hread.unique h)
      exact .value hnull (hreads.mp houtcome)
    · intro h
      cases h with
      | null => exact absurd rfl hnull
      | value _ read => exact (hreads.mpr read).optional htext hnull

/-! ## Whole texts -/

/-- A text is read as a whole when it is one value between blanks and the value is read. -/
theorem read_eq_ok_iff {reader : Nat → Reader α} (htakes : TakesValues (reader maxDepth))
    (hsettled : Settled (reader maxDepth)) {bytes : List UInt8} {x : α} :
    Json.read reader bytes = .ok x ↔ ∃ (before behind : Blanks) (text : List UInt8),
      bytes = before.val ++ (text ++ behind.val) ∧ IsValue text ∧
        IsReadAs (reader maxDepth) text x := by
  constructor
  · intro h
    obtain ⟨before, behind, text, htext, rfl⟩ := htakes.read h
    obtain ⟨outcome, houtcome⟩ := hsettled text htext
    have hread := houtcome.toOption_read before behind
    rw [h] at hread
    obtain rfl := hread
    exact ⟨before, behind, text, rfl, htext, houtcome⟩
  · rintro ⟨before, behind, text, rfl, -, hread⟩
    exact toOption_eq_some_iff.mp (hread.toOption_read before behind)

end SearchGateway.Json
