/-
  SearchGateway.Proofs.RecordText

  What a record is read from.  Each member of an object has one effect on the record that is being
  read, and what is read follows from the effects alone: a member with an unknown name has none,
  whatever its value.  A record may also be read from an array, which holds its fields in order.
-/
import SearchGateway.Proofs.SettledReaders

namespace SearchGateway.Json

variable {α β σ : Type}

/-! ## Texts that read alike -/

/-- Two texts of which a reader makes the same, wherever they stand. -/
def Alike (reader : Reader α) (first second : List UInt8) : Prop :=
  ∃ outcome, Settles reader first outcome ∧ Settles reader second outcome

theorem Settled.alike {reader : Reader α} (h : Settled reader) {text : List UInt8}
    (htext : IsValue text) : Alike reader text text := by
  obtain ⟨outcome, houtcome⟩ := h text htext
  exact ⟨outcome, houtcome, houtcome⟩

theorem Alike.symm {reader : Reader α} {first second : List UInt8}
    (h : Alike reader first second) : Alike reader second first := by
  obtain ⟨outcome, hfirst, hsecond⟩ := h
  exact ⟨outcome, hsecond, hfirst⟩

theorem Alike.trans {reader : Reader α} {first second third : List UInt8}
    (h : Alike reader first second) (h' : Alike reader second third) :
    Alike reader first third := by
  obtain ⟨outcome, hfirst, hsecond⟩ := h
  obtain ⟨outcome', hsecond', hthird⟩ := h'
  rw [hsecond.unique hsecond'] at hfirst
  exact ⟨outcome', hfirst, hthird⟩

theorem Alike.optional {reader : Reader α} {first second : List UInt8}
    (h : Alike reader first second) (hfirst : IsValue first) (hsecond : IsValue second)
    (hnull : first ≠ wordText "null") (hnull' : second ≠ wordText "null") :
    Alike (optional reader) first second := by
  obtain ⟨outcome, houtcome, houtcome'⟩ := h
  exact ⟨_, houtcome.optional hfirst hnull, houtcome'.optional hsecond hnull'⟩

theorem Settles.converted {reader : Nat → Reader α} {depth : Nat} {text : List UInt8}
    {outcome : Option α} (h : Settles (reader depth) text outcome)
    (convert : α → Except String β) :
    Settles (converted reader convert depth) text
      (outcome.bind fun x => (convert x).toOption) := by
  intro gap rest hrest
  have hread := h gap hrest
  rw [Json.converted]
  cases outcome with
  | none =>
    obtain ⟨fault, hfault⟩ := toOption_eq_none_iff.mp hread
    rw [hfault]
    rfl
  | some x =>
    rw [toOption_eq_some_iff.mp hread]
    cases hconvert : convert x <;> simp [hconvert]

theorem Settled.converted {reader : Nat → Reader α} {depth : Nat} (h : Settled (reader depth))
    (convert : α → Except String β) : Settled (converted reader convert depth) := by
  intro text htext
  obtain ⟨outcome, houtcome⟩ := h text htext
  exact ⟨_, houtcome.converted convert⟩

theorem Alike.converted {reader : Nat → Reader α} {depth : Nat} {first second : List UInt8}
    (h : Alike (reader depth) first second) (convert : α → Except String β) :
    Alike (converted reader convert depth) first second := by
  obtain ⟨outcome, hfirst, hsecond⟩ := h
  exact ⟨_, hfirst.converted convert, hsecond.converted convert⟩

/-- Lists read alike when their items do. -/
theorem Alike.list {item : Nat → Reader α} {gap : Blanks} {parts parts' : List Spaced}
    (hvalues : ∀ part ∈ parts, IsValue part.text) (hvalues' : ∀ part ∈ parts', IsValue part.text)
    (h : ∀ depth, List.Forall₂ (fun part part' => Alike (item depth) part.text part'.text)
      parts parts') (depth : Nat) :
    Alike (list item depth) (arrayText gap parts) (arrayText gap parts') := by
  cases depth with
  | zero =>
    have hnone (parts : List Spaced) : Settles (Json.list item 0) (arrayText gap parts) none :=
      settles_array (list_eq_bind item 0) fun _ => rfl
    exact ⟨none, hnone parts, hnone parts'⟩
  | succ depth =>
    obtain ⟨outcomes, hfirst, hsecond⟩ : ∃ outcomes,
        List.Forall₂ (fun part outcome => Settles (item depth) part.text outcome) parts outcomes ∧
        List.Forall₂ (fun part outcome => Settles (item depth) part.text outcome)
          parts' outcomes := by
      have hdepth := h depth
      clear h hvalues hvalues'
      induction hdepth with
      | nil => exact ⟨[], .nil, .nil⟩
      | cons hpart _ ih =>
        obtain ⟨outcome, hpart, hpart'⟩ := hpart
        obtain ⟨outcomes, hparts, hparts'⟩ := ih
        exact ⟨outcome :: outcomes, .cons hpart hparts, .cons hpart' hparts'⟩
    exact ⟨_, settles_list hvalues hfirst, settles_list hvalues' hsecond⟩

/-! ## Effects of members -/

/-- What a member does to the record that is being read: it stops the reading, changes nothing, or
    sets the field with its name. -/
inductive Effect (σ : Type) where
  | fails
  | idle
  | sets (name : String) (set : σ → σ)

/-- Goes on with the names that have been set and the record, as a member leaves them.  A field
    cannot be set twice. -/
def Effect.run {β : Type} (effect : Effect σ) (seen : List String) (x : σ)
    (next : List String → σ → Option β) : Option β :=
  match effect with
  | .fails => none
  | .idle => next seen x
  | .sets name set => if seen.contains name then none else next (name :: seen) (set x)

theorem Effect.map_run {γ : Type} (effect : Effect σ) (seen : List String) (x : σ)
    (next : List String → σ → Option β) (f : β → γ) :
    (effect.run seen x next).map f = effect.run seen x fun seen x => (next seen x).map f := by
  cases effect with
  | fails => rfl
  | idle => rfl
  | sets name set => simp only [run, apply_ite (Option.map f), Option.map_none]

namespace Shape

variable (shape : Shape σ)

/-- The record that members with some effects make of one; all required fields have to be set. -/
def gather : List (Effect σ) → List String → σ → Option σ
  | [], seen, x => if (shape.missing? seen).isNone then some x else none
  | effect :: effects, seen, x => effect.run seen x (gather effects)

/-- What a member of an object does when the record is read within a number of levels. -/
inductive HasEffect (depth : Nat) (m : Member) : Effect σ → Prop
  | unreadable (h : Names m.key.text none) : HasEffect depth m .fails
  | unknown {name : String} (h : Names m.key.text (some name)) (hfield : shape.field? name = none) :
      HasEffect depth m .idle
  | refused {name : String} {field : Field σ} (h : Names m.key.text (some name))
      (hfield : shape.field? name = some field)
      (hvalue : Settles (field.read depth) m.value.text none) : HasEffect depth m .fails
  | known {name : String} {field : Field σ} {set : σ → σ} (h : Names m.key.text (some name))
      (hfield : shape.field? name = some field)
      (hvalue : Settles (field.read depth) m.value.text (some set)) :
      HasEffect depth m (.sets name set)

variable {shape} {depth : Nat}

theorem HasEffect.exists (hfields : ∀ field ∈ shape.fields, Settled (field.read depth)) {m : Member}
    (hm : m.WellFormed) : ∃ effect, shape.HasEffect depth m effect := by
  obtain ⟨name, hname⟩ := exists_names hm.key
  cases name with
  | none => exact ⟨.fails, .unreadable hname⟩
  | some name =>
    cases hfield : shape.field? name with
    | none => exact ⟨.idle, .unknown hname hfield⟩
    | some field =>
      obtain ⟨outcome, houtcome⟩ :=
        hfields field (List.mem_of_find?_eq_some hfield) m.value.text hm.value
      cases outcome with
      | none => exact ⟨.fails, .refused hname hfield houtcome⟩
      | some set => exact ⟨.sets name set, .known hname hfield houtcome⟩

/-- A member does to the record what its effect says, and the rest of the object is read on. -/
theorem toOption_members {m : Member} {effect : Effect σ} (h : shape.HasEffect depth m effect)
    (hm : m.WellFormed) {first : Bool} {bytes rest : List UInt8}
    (hahead : keyAhead first bytes = .ok (.item (m.opened ++ rest)))
    (hrest : Delimited (m.value.behind.val ++ rest)) (tick : UInt8) (clock : List UInt8)
    (seen : List String) (x : σ) :
    (shape.members depth (tick :: clock) first seen x bytes).toOption =
      effect.run seen x fun seen x =>
        (shape.members depth clock false seen x (m.value.behind.val ++ rest)).toOption := by
  cases h with
  | unreadable hname =>
    -- the key is looked at first, and nothing behind it
    obtain ⟨fault, hfault⟩ := toOption_eq_none_iff.mp (toOption_nextKey hahead hname)
    simp [members, hfault, under, Except.mapError, Effect.run]
  | @unknown name hname hfield =>
    have hkey := toOption_eq_some_iff.mp (toOption_nextKey hahead hname)
    have hskip : (colon (m.behindKey rest)).bind skip = .ok (m.value.behind.val ++ rest) := by
      have hvalue := skip_value hm.value m.value.before hrest
      rw [Member.behindKey, colon_gap, Spaced.bytes]
      simpa [Except.bind] using hvalue
    simp only [members, hkey, under, Except.mapError, hfield, hskip, Effect.run]
  | @refused name field hname hfield hvalue =>
    have hkey := toOption_eq_some_iff.mp (toOption_nextKey hahead hname)
    obtain ⟨fault, hfault⟩ := toOption_eq_none_iff.mp (toOption_memberValue hvalue name hrest)
    simp only [members, hkey, under, Except.mapError, hfield, hfault, Effect.run]
    split <;> rfl
  | @known name field set hname hfield hvalue =>
    have hkey := toOption_eq_some_iff.mp (toOption_nextKey hahead hname)
    have hread := toOption_eq_some_iff.mp (toOption_memberValue hvalue name hrest)
    simp only [members, hkey, under, Except.mapError, hfield, hread, Effect.run]
    split <;> rfl

/-- The end of an object is reached when no required field is missing. -/
theorem toOption_members_closed {first : Bool} {bytes rest : List UInt8}
    (hahead : keyAhead first bytes = .ok (.closed rest)) (tick : UInt8) (clock : List UInt8)
    (seen : List String) (x : σ) :
    (shape.members depth (tick :: clock) first seen x bytes).toOption =
      (shape.gather [] seen x).map (·, rest) := by
  simp only [members, nextKey, hahead, under, Except.mapError, gather]
  cases shape.missing? seen <;> rfl

/-- The members behind the first ones, up to the closing bracket. -/
theorem toOption_members_tail {ms : List Member} {effects : List (Effect σ)}
    (h : List.Forall₂ (shape.HasEffect depth) ms effects) (hms : ∀ m ∈ ms, m.WellFormed)
    {clock : List UInt8} (hclock : ms.length < clock.length) (seen : List String) (x : σ)
    (gap : Blanks) (rest : List UInt8) :
    (shape.members depth clock false seen x (gap.val ++ membersBehind ms rest)).toOption =
      (shape.gather effects seen x).map (·, rest) := by
  induction h generalizing clock seen x gap with
  | nil =>
    cases clock with
    | nil => exact absurd hclock (Nat.not_lt_zero _)
    | cons tick clock =>
      exact toOption_members_closed (keyAhead_closed false gap rest) tick clock _ _
  | @cons m effect ms effects heffect _ ih =>
    rw [List.forall_mem_cons] at hms
    cases clock with
    | nil => exact absurd hclock (Nat.not_lt_zero _)
    | cons tick clock =>
      have hahead := keyAhead_comma gap m (membersBehind ms rest)
      have hstep := toOption_members heffect hms.1 hahead
        (delimited_membersBehind m.value.behind ms rest) tick clock seen x
      -- whatever the member does, the others go on from there
      have hbehind (seen : List String) (x : σ) :=
        ih hms.2 (show ms.length < clock.length by simpa using hclock) seen x m.value.behind
      rw [membersBehind_cons, hstep, gather, Effect.map_run]
      simp only [hbehind]

/-- How a record goes on by the front of a value. -/
def take (shape : Shape σ) (depth : Nat) (found : Found) : Reader σ := fun rest =>
  match found with
  | .map =>
    nested (fun depth rest => shape.members depth (0 :: rest) true [] shape.initial rest) depth rest
  | .sequence =>
    nested (fun depth rest => shape.items depth shape.fields 0 shape.initial rest) depth rest
  | found => mismatched (.wrongType found shape.title)

theorem read_eq_bind (shape : Shape σ) (depth : Nat) (bytes : List UInt8) :
    shape.read depth bytes = (front bytes).bind fun found => shape.take depth found.1 found.2 := by
  rw [Shape.read]
  rcases front bytes with fault | ⟨found, rest⟩
  · rfl
  · cases found <;> rfl

/-- What an object is read as is what the effects of its members make of the record in which no
    field has been set. -/
theorem settles_read {ms : List Member} {effects : List (Effect σ)}
    (h : List.Forall₂ (shape.HasEffect depth) ms effects) (hms : ∀ m ∈ ms, m.WellFormed)
    (gap : Blanks) :
    Settles (shape.read (depth + 1)) (objectText gap ms)
      (shape.gather effects [] shape.initial) := by
  refine settles_object (read_eq_bind shape (depth + 1)) fun rest => ?_
  show (shape.members depth (0 :: objectInside gap ms rest) true [] shape.initial
    (objectInside gap ms rest)).toOption = _
  have hlength := length_le_objectInside gap ms rest
  cases h with
  | nil => exact toOption_members_closed (keyAhead_closed true gap rest) 0 _ _ _
  | @cons m effect ms effects heffect heffects =>
    rw [List.forall_mem_cons] at hms
    have hahead : keyAhead true (objectInside gap (m :: ms) rest) =
        .ok (.item (m.opened ++ membersBehind ms rest)) := by
      rw [objectInside_cons, keyAhead_member]
    have hstep := toOption_members heffect hms.1 hahead
      (delimited_membersBehind m.value.behind ms rest) 0 (objectInside gap (m :: ms) rest) []
      shape.initial
    have hbehind (seen : List String) (x : σ) :=
      toOption_members_tail heffects hms.2 (Nat.lt_of_succ_le hlength) seen x m.value.behind rest
    rw [hstep, gather, Effect.map_run]
    simp only [hbehind]

theorem exists_effects (hfields : ∀ field ∈ shape.fields, Settled (field.read depth))
    {ms : List Member} (hms : ∀ m ∈ ms, m.WellFormed) :
    ∃ effects, List.Forall₂ (shape.HasEffect depth) ms effects := by
  induction ms with
  | nil => exact ⟨[], .nil⟩
  | cons m ms ih =>
    rw [List.forall_mem_cons] at hms
    obtain ⟨effect, heffect⟩ := HasEffect.exists hfields hms.1
    obtain ⟨effects, heffects⟩ := ih hms.2
    exact ⟨effect :: effects, .cons heffect heffects⟩

/-! ## Records written as arrays -/

/-- Where the items of an array stand: in front of the first one, or behind another one. -/
def itemsAt (index : Nat) (gap : Blanks) (parts : List Spaced) (rest : List UInt8) : List UInt8 :=
  if index = 0 then arrayInside gap parts rest
  else gap.val ++ itemsBehind parts rest

theorem itemAhead_itemsAt_nil (index : Nat) (gap : Blanks) (rest : List UInt8) :
    itemAhead (index = 0) (itemsAt index gap [] rest) = .ok (.closed rest) := by
  unfold itemsAt
  split <;> exact itemAhead_closed _ gap rest

theorem itemAhead_itemsAt_cons (index : Nat) (gap : Blanks) {part : Spaced} (h : IsValue part.text)
    (parts : List Spaced) (rest : List UInt8) :
    itemAhead (index = 0) (itemsAt index gap (part :: parts) rest) =
      .ok (.item (part.text ++ itemsAt (index + 1) part.behind parts rest)) := by
  have hbehind : itemsAt (index + 1) part.behind parts rest =
      part.behind.val ++ itemsBehind parts rest := if_neg (by omega)
  rw [hbehind]
  unfold itemsAt
  split
  · rename_i hindex
    rw [arrayInside_cons, decide_eq_true hindex, itemAhead_item h]
  · rename_i hindex
    rw [itemsBehind_cons, decide_eq_false hindex, itemAhead_comma h]

theorem closeItems_itemsAt_nil {index : Nat} (hindex : index ≠ 0) (gap : Blanks)
    (rest : List UInt8) : closeItems (itemsAt index gap [] rest) = .ok rest := by
  rw [itemsAt, if_neg hindex, closeItems, gap.dropBlank]
  rfl

theorem closeItems_itemsAt_cons {index : Nat} (hindex : index ≠ 0) (gap : Blanks) (part : Spaced)
    (parts : List Spaced) (rest : List UInt8) :
    (closeItems (itemsAt index gap (part :: parts) rest)).toOption = none := by
  have hcomma : ','.toUInt8 ≠ ']'.toUInt8 := by decide
  rw [itemsAt, if_neg hindex, closeItems, gap.dropBlank, itemsBehind_cons,
    dropBlank_cons (by decide)]
  simp only [if_neg hcomma]
  split <;> rfl

variable (shape) in
/-- Arrays make the same record when each field makes the same of the items at its place. -/
theorem exists_items {fields : List (Field σ)} {parts parts' : List Spaced}
    (hvalues : ∀ part ∈ parts, IsValue part.text) (hvalues' : ∀ part ∈ parts', IsValue part.text)
    (h : List.Forall₂ (fun part part' => ∀ field ∈ fields,
      Alike (field.read depth) part.text part'.text) parts parts')
    {index : Nat} (hindex : index ≠ 0 ∨ fields ≠ []) (x : σ) :
    ∃ outcome : Option σ, ∀ (gap : Blanks) (rest : List UInt8),
      (shape.items depth fields index x (itemsAt index gap parts rest)).toOption =
          outcome.map (·, rest) ∧
        (shape.items depth fields index x (itemsAt index gap parts' rest)).toOption =
          outcome.map (·, rest) := by
  -- the fields are taken along with the items; `index` counts the items that have been read
  induction fields generalizing parts parts' index x with
  | nil =>
    have hindex : index ≠ 0 := hindex.resolve_right fun hne => hne rfl
    cases h with
    | nil =>
      refine ⟨some x, fun gap rest => ?_⟩
      simp [items, closeItems_itemsAt_nil hindex]
    | cons _ _ =>
      refine ⟨none, fun gap rest => ?_⟩
      simp [items, closeItems_itemsAt_cons hindex]
  | cons field fields ih =>
    cases h with
    | nil =>
      refine ⟨if ((field :: fields).findIdx? Field.required).isSome then none else some x,
        fun gap rest => ?_⟩
      simp only [items, itemAhead_itemsAt_nil, and_self]
      cases (field :: fields).findIdx? Field.required <;> rfl
    | @cons part part' parts parts' hpart hparts =>
      rw [List.forall_mem_cons] at hvalues hvalues'
      obtain ⟨⟨outcome, hread, hread'⟩, hothers⟩ := List.forall_mem_cons.mp hpart
      have hbehind (gap : Blanks) (parts : List Spaced) (rest : List UInt8) :
          Delimited (itemsAt (index + 1) gap parts rest) := by
        rw [itemsAt, if_neg (by omega)]
        exact delimited_itemsBehind gap parts rest
      cases outcome with
      | none =>
        refine ⟨none, fun gap rest => ?_⟩
        obtain ⟨fault, hfault⟩ :=
          toOption_eq_none_iff.mp (hread .none (hbehind part.behind parts rest))
        obtain ⟨fault', hfault'⟩ :=
          toOption_eq_none_iff.mp (hread' .none (hbehind part'.behind parts' rest))
        rw [Blanks.none, List.nil_append] at hfault hfault'
        simp [items, itemAhead_itemsAt_cons, hvalues.1, hvalues'.1, hfault, hfault', under,
          Except.mapError]
      | some set =>
        have hparts := hparts.imp fun _ _ hall field hfield =>
          hall field (List.mem_cons_of_mem _ hfield)
        obtain ⟨outcome, houtcome⟩ := ih hvalues.2 hvalues'.2 hparts (.inl (Nat.succ_ne_zero index))
          (set x)
        refine ⟨outcome, fun gap rest => ?_⟩
        have hok := toOption_eq_some_iff.mp (hread .none (hbehind part.behind parts rest))
        have hok' := toOption_eq_some_iff.mp (hread' .none (hbehind part'.behind parts' rest))
        rw [Blanks.none, List.nil_append] at hok hok'
        simp [items, itemAhead_itemsAt_cons, hvalues.1, hvalues'.1, hok, hok', under,
          Except.mapError, houtcome]

/-- Records written as arrays read alike when their items do. -/
theorem alike_arrays (hne : shape.fields ≠ []) {gap : Blanks} {parts parts' : List Spaced}
    (hvalues : ∀ part ∈ parts, IsValue part.text) (hvalues' : ∀ part ∈ parts', IsValue part.text)
    (h : ∀ depth, List.Forall₂ (fun part part' => ∀ field ∈ shape.fields,
      Alike (field.read depth) part.text part'.text) parts parts') (depth : Nat) :
    Alike (shape.read depth) (arrayText gap parts) (arrayText gap parts') := by
  cases depth with
  | zero =>
    have hnone (parts : List Spaced) : Settles (shape.read 0) (arrayText gap parts) none :=
      settles_array (read_eq_bind shape 0) fun _ => rfl
    exact ⟨none, hnone parts, hnone parts'⟩
  | succ depth =>
    obtain ⟨outcome, houtcome⟩ :=
      shape.exists_items hvalues hvalues' (h depth) (.inr hne) shape.initial
    exact ⟨outcome, settles_array (read_eq_bind shape (depth + 1)) fun rest => (houtcome gap rest).1,
      settles_array (read_eq_bind shape (depth + 1)) fun rest => (houtcome gap rest).2⟩

theorem settles_read_zero (gap : Blanks) (ms : List Member) :
    Settles (shape.read 0) (objectText gap ms) none :=
  settles_object (read_eq_bind shape 0) fun _ => rfl

/-- A scalar is no record. -/
theorem settles_read_scalar {text : List UInt8} {found : Option Found}
    (hfound : Settles front text found) (hkind : ∀ x ∈ found, x ≠ .sequence ∧ x ≠ .map) :
    Settles (shape.read depth) text none := by
  refine settles_scalar (read_eq_bind shape depth) hfound (fun x hx rest => ?_) fun _ => rfl
  obtain ⟨hsequence, hmap⟩ := hkind x hx
  cases x with
  | sequence => exact absurd rfl hsequence
  | map => exact absurd rfl hmap
  | _ => rfl

/-- A record is settled when its fields are. -/
theorem settled_read (hne : shape.fields ≠ [])
    (hfields : ∀ field ∈ shape.fields, ∀ depth, Settled (field.read depth)) (depth : Nat) :
    Settled (shape.read depth) := by
  intro text htext
  cases htext.opens with
  | scalar hfound hkind => exact ⟨none, settles_read_scalar hfound hkind⟩
  | @array gap parts hvalues =>
    have hparts (depth : Nat) : List.Forall₂ (fun part part' => ∀ field ∈ shape.fields,
        Alike (field.read depth) part.text part'.text) parts parts :=
      List.forall₂_same.mpr fun part hpart field hfield =>
        (hfields field hfield depth).alike (hvalues part hpart)
    obtain ⟨outcome, houtcome, -⟩ := alike_arrays hne hvalues hvalues hparts depth
    exact ⟨outcome, houtcome⟩
  | @object gap ms hkeys hvalues =>
    cases depth with
    | zero => exact ⟨none, settles_read_zero gap ms⟩
    | succ depth =>
      have hms : ∀ m ∈ ms, m.WellFormed := fun m hm => ⟨hkeys m hm, hvalues m hm⟩
      obtain ⟨effects, heffects⟩ :=
        exists_effects (fun field hfield => hfields field hfield depth) hms
      exact ⟨_, settles_read heffects hms gap⟩

end Shape

end SearchGateway.Json
