/-
  SearchGateway.Proofs.RequestText

  Requests and their texts.  A request is read back from the text in which it is
  sent, and from every text that lists the same members in another order.
-/
import SearchGateway.Query.Request
import SearchGateway.Proofs.Members
import SearchGateway.Proofs.RawPredicates
import SearchGateway.Proofs.Reading

namespace SearchGateway.Query

open SearchGateway.Json (Reads Value)

/-! ## Predicates -/

theorem Operator.reads_code (operator : Operator) (depth : Nat) :
    Reads (Json.oneOf byCode depth) (.string operator.code) operator := by
  intro rest _
  have hconstant : Json.constant byCode operator.code = .ok operator := by
    have hcode : byCode.lookup operator.code = some operator := ofCode?_code operator
    simp only [Json.constant, hcode]
  have hquote (bytes : List UInt8) : Json.dropBlank ('"'.toUInt8 :: bytes) = '"'.toUInt8 :: bytes :=
    rfl
  rw [Value.text, Json.encode_stringText, Json.oneOf, hquote]
  simp only [if_true, Json.stringRest_escaped, hconstant, Except.map]

/-- A text is read as a value. -/
theorem reads_value_string (depth : Nat) (s : String) :
    Reads (Json.value depth) (.string s) (.string s) := by
  intro rest _
  cases depth <;> simp only [Json.value, Json.valueWith, Json.front_string]

/-- A raw predicate of texts is read from its members in any order. -/
theorem RawPredicate.reads {raw : RawPredicate} {depth : Nat}
    (hvalue : ∀ v ∈ raw.value, ∃ s, v = .string s)
    (hvalues : ∀ vs ∈ raw.values, ∃ texts : List String, vs = texts.map .string)
    (hhigh : ∀ v ∈ raw.highValue, ∃ s, v = .string s)
    {ms : List (String × Value)} (hperm : ms.Perm raw.toJson.members) :
    Reads (shape.read (depth + 2)) (.object ms) raw := by
  -- the members that are always there
  have hproperty : shape.Sets (depth + 1) ("propertyName", .string raw.property) _ :=
    Json.Shape.sets_mandatory (fun _ => Json.string)
      (fun s (r : RawPredicate) => { r with property := s }) rfl (Json.reads_string raw.property)
  have hoperator : shape.Sets (depth + 1) ("operator", .string raw.operator.code) _ :=
    Json.Shape.sets_mandatory (Json.oneOf Operator.byCode)
      (fun o (r : RawPredicate) => { r with operator := o }) rfl
      (Operator.reads_code raw.operator (depth + 1))
  -- the optional members, which hold texts or lists of texts
  have hvalue' : ∀ v ∈ raw.value, shape.Sets (depth + 1) ("value", v)
      fun r => { r with value := some v } := by
    intro v hv
    obtain ⟨s, rfl⟩ := hvalue v hv
    exact Json.Shape.sets_optional (fun depth => Json.optional (Json.value depth))
      (fun v (r : RawPredicate) => { r with value := v }) rfl
      ((reads_value_string _ s).optional (Json.head?_string s))
  have hvalues' : ∀ vs ∈ raw.values, shape.Sets (depth + 1) ("values", .array vs)
      fun r => { r with values := some vs } := by
    intro vs hvs
    obtain ⟨texts, rfl⟩ := hvalues vs hvs
    have hitems : List.Forall₂ (Reads (Json.value depth)) (texts.map .string)
        (texts.map .string) := by
      rw [List.forall₂_same]
      intro v hv
      obtain ⟨s, -, rfl⟩ := List.mem_map.mp hv
      exact reads_value_string depth s
    exact Json.Shape.sets_optional (fun depth => Json.optional (Json.list Json.value depth))
      (fun vs (r : RawPredicate) => { r with values := vs }) rfl
      ((Reads.list hitems).optional (Json.head?_array _))
  have hhigh' : ∀ v ∈ raw.highValue, shape.Sets (depth + 1) ("highValue", v)
      fun r => { r with highValue := some v } := by
    intro v hv
    obtain ⟨s, rfl⟩ := hhigh v hv
    exact Json.Shape.sets_optional (fun depth => Json.optional (Json.value depth))
      (fun v (r : RawPredicate) => { r with highValue := v }) rfl
      ((reads_value_string _ s).optional (Json.head?_string s))
  have hsets := List.rel_append
    (List.rel_append
      (List.rel_append
        (List.Forall₂.cons hproperty (List.Forall₂.cons hoperator .nil))
        (Json.Shape.sets_option hvalue'))
      (Json.Shape.sets_option hvalues'))
    (Json.Shape.sets_option hhigh')
  have hread := Reads.record_perm hsets ?nodup ?missing ?commute hperm
  -- which members there are depends on the optional ones only, so each side goal is finite
  case nodup =>
    cases raw.value <;> cases raw.values <;> cases raw.highValue <;> simp
  case missing =>
    intro field hfield hrequired
    simp only [shape, List.mem_cons, List.not_mem_nil, or_false] at hfield
    rcases hfield with rfl | rfl | rfl | rfl | rfl
    -- property and operator are always written, the other fields are not required
    · simp [Json.Field.mandatory]
    · simp [Json.Field.mandatory]
    all_goals exact absurd hrequired (by decide)
  case commute =>
    cases raw.value <;> cases raw.values <;> cases raw.highValue <;> simp
  -- what is set on the initial record is the record itself, whichever members are left out
  obtain ⟨property, operator, value, values, highValue⟩ := raw
  cases value <;> cases values <;> cases highValue <;> exact hread

/-- A value is the object of a predicate, with its members in any order. -/
def Predicate.SpelledBy (p : Predicate) (v : Value) : Prop :=
  ∃ ms, v = .object ms ∧ ms.Perm p.toJson.members

theorem Predicate.spelledBy_toJson (p : Predicate) : p.SpelledBy p.toJson :=
  ⟨p.toJson.members, rfl, .refl _⟩

theorem Predicate.spelledBy_sorted (p : Predicate) : p.SpelledBy p.toJson.sorted := by
  have hnodup : (p.toJson.members.map Prod.fst).Nodup := by
    obtain ⟨property, condition⟩ := p
    cases condition with
    | presence presence value =>
      cases value <;> simp [Predicate.toJson, Predicate.toRaw, RawPredicate.toJson, Value.members,
        RawPart.key]
    | _ => simp [Predicate.toJson, Predicate.toRaw, RawPredicate.toJson, Value.members, RawPart.key]
  obtain ⟨ms, hsorted, hperm⟩ := Json.sorted_object hnodup
  refine ⟨ms, hsorted, ?_⟩
  -- every value of a predicate is a text or a list of texts, so nothing is sorted inside it
  have hinside : p.toJson.members.map (fun m => (m.1, m.2.sorted)) = p.toJson.members := by
    obtain ⟨property, condition⟩ := p
    cases condition with
    | compare comparison value => rfl
    | member membership values =>
      simp [Predicate.toJson, Predicate.toRaw, RawPredicate.toJson, Value.members, Value.sorted,
        Json.sortedItems_eq_map]
    | presence presence value => cases value <;> rfl
    | between low high => rfl
  rwa [hinside] at hperm

/-- A predicate is read from its members in any order. -/
theorem Predicate.reads {p : Predicate} {v : Value} (h : p.SpelledBy v) (depth : Nat) :
    Reads (Predicate.read (depth + 2)) v p := by
  obtain ⟨ms, rfl, hperm⟩ := h
  have hraw : Reads (RawPredicate.shape.read (depth + 2)) (.object ms) p.toRaw := by
    refine RawPredicate.reads ?_ ?_ ?_ hperm <;>
    obtain ⟨property, condition⟩ := p <;>
    cases condition <;>
    simp [Predicate.toRaw]
  exact hraw.converted (by rw [toPredicate?_toRaw]; rfl)

/-! ## Groups -/

/-- A value is the object of a group, with the members of its predicates in any order. -/
def FilterGroup.SpelledBy (group : FilterGroup) (v : Value) : Prop :=
  ∃ vs, v = .object [("filters", .array vs)] ∧ List.Forall₂ Predicate.SpelledBy group.filters vs

theorem FilterGroup.spelledBy_toJson (group : FilterGroup) : group.SpelledBy group.toJson := by
  refine ⟨_, rfl, ?_⟩
  rw [List.forall₂_map_right_iff, List.forall₂_same]
  exact fun p _ => p.spelledBy_toJson

theorem FilterGroup.spelledBy_sorted (group : FilterGroup) :
    group.SpelledBy group.toJson.sorted := by
  refine ⟨group.filters.map fun p => p.toJson.sorted, ?_, ?_⟩
  · simp only [FilterGroup.toJson, Value.sorted, Json.sortedMembers, Json.sortedItems_eq_map,
      List.map_map]
    rfl
  · rw [List.forall₂_map_right_iff, List.forall₂_same]
    exact fun p _ => p.spelledBy_sorted

/-- A group is read from its object. -/
theorem FilterGroup.reads {group : FilterGroup} {v : Value} (h : group.SpelledBy v) (depth : Nat) :
    Reads (FilterGroup.shape.read (depth + 4)) v group := by
  obtain ⟨vs, rfl, hvs⟩ := h
  have hitems : List.Forall₂ (Reads (Predicate.read (depth + 2))) vs group.filters :=
    hvs.flip.imp fun _ _ hv => Predicate.reads hv depth
  have hfilters : shape.Sets (depth + 3) ("filters", .array vs) _ :=
    Json.Shape.sets_optional (Json.list Predicate.read) (fun filters _ => ⟨filters⟩) rfl
      (Reads.list hitems)
  refine Reads.record (.cons hfilters .nil) (List.pairwise_singleton _ _) ?_
  intro field hfield hrequired
  rw [List.mem_singleton.mp hfield] at hrequired
  exact absurd hrequired (by decide)

/-! ## Requests -/

/-- The members of a request, with given values for its groups. -/
def SearchRequest.membersWith (request : SearchRequest) (groups : List Value) :
    List (String × Value) :=
  (request.query.map fun text => ("query", Value.string text)).toList
    ++ unlessEmpty "filterGroups" groups
    ++ unlessEmpty "properties" (request.properties.map .string)
    ++ [("limit", .ofInt request.limit)]
    ++ (request.after.map fun cursor => ("after", Value.string cursor)).toList

/-- A value is the object of a request, with the members of the request, of its groups and of their
    predicates in any order. -/
def SearchRequest.SpelledBy (request : SearchRequest) (v : Value) : Prop :=
  ∃ groups ms, List.Forall₂ FilterGroup.SpelledBy request.filterGroups groups ∧
    v = .object ms ∧ ms.Perm (request.membersWith groups)

theorem SearchRequest.spelledBy_toJson (request : SearchRequest) :
    request.SpelledBy request.toJson := by
  refine ⟨request.filterGroups.map FilterGroup.toJson, _, ?_, rfl, .refl _⟩
  rw [List.forall₂_map_right_iff, List.forall₂_same]
  exact fun group _ => group.spelledBy_toJson

theorem SearchRequest.nodup_membersWith (request : SearchRequest) (groups : List Value) :
    ((request.membersWith groups).map Prod.fst).Nodup := by
  obtain ⟨query, filterGroups, properties, limit, after⟩ := request
  cases query <;> cases groups <;> cases properties <;> cases after <;>
    simp [membersWith, unlessEmpty]

theorem SearchRequest.sorted_unlessEmpty (key : String) (vs : List Value) :
    (unlessEmpty key vs).map (fun m => (m.1, m.2.sorted))
      = unlessEmpty key (vs.map Value.sorted) := by
  cases vs with
  | nil => rfl
  | cons v vs =>
    simp only [unlessEmpty, List.isEmpty_cons, Bool.false_eq_true, if_false, List.map_cons,
      List.map_nil, Value.sorted, Json.sortedItems_eq_map]

theorem SearchRequest.spelledBy_sorted (request : SearchRequest) :
    request.SpelledBy request.toJson.sorted := by
  obtain ⟨ms, hsorted, hperm⟩ := Json.sorted_object
    (request.nodup_membersWith (request.filterGroups.map FilterGroup.toJson))
  refine ⟨request.filterGroups.map fun group => group.toJson.sorted, ms, ?_, hsorted, ?_⟩
  · rw [List.forall₂_map_right_iff, List.forall₂_same]
    exact fun group _ => group.spelledBy_sorted
  -- only the groups have objects inside
  have hinside : (request.membersWith (request.filterGroups.map FilterGroup.toJson)).map
        (fun m => (m.1, m.2.sorted))
      = request.membersWith (request.filterGroups.map fun group => group.toJson.sorted) := by
    simp only [membersWith, List.map_append, sorted_unlessEmpty, List.map_map]
    cases request.query <;> cases request.after <;> rfl
  rwa [hinside] at hperm

/-- A member that is left out when its list is empty. -/
theorem sets_unlessEmpty {σ : Type} {shape : Json.Shape σ} {depth : Nat} {key : String}
    {vs : List Value} {set : σ → σ} (h : shape.Sets depth (key, .array vs) set) :
    List.Forall₂ (shape.Sets depth) (SearchRequest.unlessEmpty key vs)
      (if vs.isEmpty then [] else [set]) := by
  cases vs with
  | nil => exact .nil
  | cons v vs => exact .cons h .nil

/-- What the members of a request set, when a field reads each of them. -/
theorem SearchRequest.sets_membersWith (request : SearchRequest) {σ : Type} {shape : Json.Shape σ}
    {depth : Nat} {groups : List Value} {query after : String → σ → σ}
    {filterGroups properties limit : σ → σ}
    (hquery : ∀ text ∈ request.query, shape.Sets depth ("query", .string text) (query text))
    (hfilterGroups : shape.Sets depth ("filterGroups", .array groups) filterGroups)
    (hproperties : shape.Sets depth ("properties", .array (request.properties.map .string))
      properties)
    (hlimit : shape.Sets depth ("limit", .ofInt request.limit) limit)
    (hafter : ∀ cursor ∈ request.after, shape.Sets depth ("after", .string cursor)
      (after cursor)) :
    List.Forall₂ (shape.Sets depth) (request.membersWith groups)
      ((request.query.map query).toList ++ (if groups.isEmpty then [] else [filterGroups]) ++
        (if (request.properties.map Value.string).isEmpty then [] else [properties]) ++ [limit] ++
        (request.after.map after).toList) :=
  List.rel_append
    (List.rel_append
      (List.rel_append
        (List.rel_append (Json.Shape.sets_option hquery) (sets_unlessEmpty hfilterGroups))
        (sets_unlessEmpty hproperties))
      (List.Forall₂.cons hlimit .nil))
    (Json.Shape.sets_option hafter)

/-- The groups of a request are read. -/
theorem reads_groups {groups : List FilterGroup} {vs : List Value}
    (h : List.Forall₂ FilterGroup.SpelledBy groups vs) (depth : Nat) :
    Reads (Json.list FilterGroup.shape.read (depth + 5)) (.array vs) groups :=
  Reads.list (h.flip.imp fun _ _ hv => FilterGroup.reads hv depth)

/-- A request is read from its members in any order. -/
theorem SearchRequest.reads {request : SearchRequest} {v : Value} (h : request.SpelledBy v)
    (hlimit : Json.IsInt64 request.limit) (depth : Nat) :
    Reads (SearchRequest.shape.read (depth + 6)) v request := by
  obtain ⟨groups, ms, hgroups, rfl, hperm⟩ := h
  -- each member sets its own part of the request
  have hquery : ∀ text ∈ request.query, shape.Sets (depth + 5) ("query", .string text)
      fun r => { r with query := some text } := fun text _ =>
    Json.Shape.sets_optional (fun _ => Json.optional Json.string)
      (fun query (r : SearchRequest) => { r with query }) rfl
      ((Json.reads_string text).optional (Json.head?_string text))
  have hfilterGroups : shape.Sets (depth + 5) ("filterGroups", .array groups)
      fun r => { r with filterGroups := request.filterGroups } :=
    Json.Shape.sets_optional (Json.list FilterGroup.shape.read)
      (fun filterGroups (r : SearchRequest) => { r with filterGroups }) rfl
      (reads_groups hgroups depth)
  have hproperties : shape.Sets (depth + 5) ("properties", .array (request.properties.map .string))
      fun r => { r with properties := request.properties } :=
    Json.Shape.sets_optional (Json.list fun _ => Json.string)
      (fun properties (r : SearchRequest) => { r with properties }) rfl
      (Json.reads_strings (depth + 4) request.properties)
  have hlimit' : shape.Sets (depth + 5) ("limit", .ofInt request.limit)
      fun r => { r with limit := request.limit } :=
    Json.Shape.sets_mandatory (fun _ => Json.int64)
      (fun limit (r : SearchRequest) => { r with limit }) rfl (Json.reads_int64 hlimit)
  have hafter : ∀ cursor ∈ request.after, shape.Sets (depth + 5) ("after", .string cursor)
      fun r => { r with after := some cursor } := fun cursor _ =>
    Json.Shape.sets_optional (fun _ => Json.optional Json.string)
      (fun after (r : SearchRequest) => { r with after }) rfl
      ((Json.reads_string cursor).optional (Json.head?_string cursor))
  have hsets := request.sets_membersWith hquery hfilterGroups hproperties hlimit' hafter
  have hread := Reads.record_perm hsets (request.nodup_membersWith groups) ?missing ?commute hperm
  case missing =>
    intro field hfield hrequired
    simp only [shape, List.mem_cons, List.not_mem_nil, or_false] at hfield
    rcases hfield with rfl | rfl | rfl | rfl | rfl
    -- only the limit is required, and it is always written
    case inr.inr.inr.inl => simp [membersWith, Json.Field.mandatory]
    all_goals exact absurd hrequired (by decide)
  case commute =>
    cases request.query <;> cases groups <;> cases request.properties <;> cases request.after <;>
      simp
  -- a part that is left out has the value of the initial request
  obtain ⟨query, filterGroups, properties, limit, after⟩ := request
  cases query <;> cases hgroups <;> cases properties <;> cases after <;> exact hread

/-- A request is read from every text that lists its members in some order. -/
theorem SearchRequest.parse_spelled {request : SearchRequest} {v : Value}
    (h : request.SpelledBy v) (hlimit : Json.IsInt64 request.limit) :
    SearchRequest.parse (Text.Utf8.ofString v.print) = .ok request :=
  Json.read_print (SearchRequest.reads h hlimit 121)

/-- A request is read back from the text in which it is sent, so no other request is sent in the
    same text. -/
theorem SearchRequest.parse_wire {request : SearchRequest} (hlimit : Json.IsInt64 request.limit) :
    SearchRequest.parse (Text.Utf8.ofString request.wire) = .ok request ∧
      ∀ other : SearchRequest, Json.IsInt64 other.limit → other.wire = request.wire →
        other = request := by
  have hread := parse_spelled request.spelledBy_toJson hlimit
  refine ⟨hread, fun other hother hwire => ?_⟩
  -- the reader is a function, so two requests with one text are what it reads off that text
  have hread' := parse_spelled other.spelledBy_toJson hother
  rw [show other.toJson.print = request.toJson.print from hwire, hread] at hread'
  exact (Except.ok.inj hread').symm

/-- A request with an empty group, an empty list, a presence test without a value, and texts that
    have to be escaped or are not ASCII. -/
def SearchRequest.intricate : SearchRequest where
  query := some "a \"b\" \\ \n\x01 é 😀"
  filterGroups := [
    ⟨[]⟩,
    ⟨[⟨"größe", .between "1" "\t"⟩, ⟨"", .member .notInList []⟩, ⟨"x", .presence .absent none⟩,
      ⟨"y", .presence .present (some "")⟩, ⟨"z", .compare .containsToken "\x7f\\u0041"⟩]⟩]
  properties := [""]
  limit := -0x8000000000000000
  after := some "\x7b\x7d"

theorem SearchRequest.parse_wire_intricate :
    Json.IsInt64 intricate.limit ∧
      SearchRequest.parse (Text.Utf8.ofString intricate.wire) = .ok intricate ∧
      ∀ other : SearchRequest, Json.IsInt64 other.limit → other.wire = intricate.wire →
        other = intricate :=
  have hlimit : Json.IsInt64 intricate.limit := by decide
  ⟨hlimit, parse_wire hlimit⟩

end SearchGateway.Query
