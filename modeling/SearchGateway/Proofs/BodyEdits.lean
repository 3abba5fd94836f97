/-
  SearchGateway.Proofs.BodyEdits

  A structured search body is read by the names of its members.  The members of the body, of its
  groups and of their predicates may come in any order and among members with other names, and a
  member whose value is `null` reads like one that is left out.
-/
import SearchGateway.Gateway.Body
import SearchGateway.Proofs.RecordEdits

namespace SearchGateway.Query

open SearchGateway.Json

/-! ## What may change -/

/-- Changes to the members of a predicate. -/
def PredicateEdits : List UInt8 → List UInt8 → Prop :=
  ObjectEdits ["propertyName", "operator", "value", "values", "highValue"]
    ["value", "values", "highValue"] fun _ _ _ => False

/-- Changes to the members of a group and to its predicates.  A group may also be written as an array
    that holds the list of its predicates. -/
def GroupEdits (first second : List UInt8) : Prop :=
  ObjectEdits ["filters"] [] (fun name first second =>
      name = "filters" ∧ ListEdits PredicateEdits first second) first second ∨
    ListEdits (ListEdits PredicateEdits) first second

/-- Changes to the members of a body and to its groups; there may be blanks around the body. -/
def BodyEdits (bytes bytes' : List UInt8) : Prop :=
  ∃ (before behind : Blanks) (first second : List UInt8),
    bytes = before.val ++ (first ++ behind.val) ∧ bytes' = before.val ++ (second ++ behind.val) ∧
      ObjectEdits ["filterGroups", "query", "limit", "properties", "after"]
        ["filterGroups", "query", "limit", "properties", "after"] (fun name first second =>
          name = "filterGroups" ∧ ListEdits GroupEdits first second) first second

/-! ## Predicates -/

namespace RawPredicate

theorem settled_fields : ∀ field ∈ shape.fields, ∀ depth, Settled (field.read depth) := by
  simp only [shape, List.forall_mem_cons]
  refine ⟨fun _ => ?_, fun depth => ?_, fun depth => ?_, fun depth => ?_, fun depth => ?_, ?_⟩
  · exact Field.settled_mandatory settled_string
  · exact Field.settled_mandatory (settled_oneOf Operator.byCode depth)
  · exact Field.settled_optional (settled_value depth).optional
  · exact Field.settled_optional (settled_list settled_value depth).optional
  · exact Field.settled_optional (settled_value depth).optional
  · exact fun _ h => absurd h List.not_mem_nil

theorem independent : shape.Independent := by
  refine Shape.independent_of_pairwise ?_
  simp only [shape, List.pairwise_cons, List.forall_mem_cons, List.not_mem_nil, false_imp_iff,
    implies_true, List.Pairwise.nil, and_true]
  -- each field with those behind it
  refine ⟨⟨?_, ?_, ?_, ?_⟩, ⟨?_, ?_, ?_⟩, ⟨?_, ?_⟩, ?_⟩
  · exact Field.SetsBy.mandatory.commutes .mandatory fun _ _ _ => rfl
  · exact Field.SetsBy.mandatory.commutes .optional fun _ _ _ => rfl
  · exact Field.SetsBy.mandatory.commutes .optional fun _ _ _ => rfl
  · exact Field.SetsBy.mandatory.commutes .optional fun _ _ _ => rfl
  · exact Field.SetsBy.mandatory.commutes .optional fun _ _ _ => rfl
  · exact Field.SetsBy.mandatory.commutes .optional fun _ _ _ => rfl
  · exact Field.SetsBy.mandatory.commutes .optional fun _ _ _ => rfl
  · exact Field.SetsBy.optional.commutes .optional fun _ _ _ => rfl
  · exact Field.SetsBy.optional.commutes .optional fun _ _ _ => rfl
  · exact Field.SetsBy.optional.commutes .optional fun _ _ _ => rfl

theorem bears : shape.Bears ["value", "values", "highValue"] fun _ _ _ => False where
  settled := settled_fields
  independent := independent
  null name hname := by
    simp only [List.mem_cons, List.not_mem_nil, or_false] at hname
    rcases hname with rfl | rfl | rfl
    · exact ⟨_, rfl, by decide, fun depth => ⟨_, Field.settles_null, rfl⟩⟩
    · exact ⟨_, rfl, by decide, fun depth => ⟨_, Field.settles_null, rfl⟩⟩
    · exact ⟨_, rfl, by decide, fun depth => ⟨_, Field.settles_null, rfl⟩⟩
  values h := h.elim
  alike h := h.elim

end RawPredicate

theorem Predicate.settled (depth : Nat) : Settled (Predicate.read depth) :=
  (Shape.settled_read (List.cons_ne_nil _ _) RawPredicate.settled_fields depth).converted _

theorem PredicateEdits.isValue {first second : List UInt8} (h : PredicateEdits first second) :
    IsValue first ∧ IsValue second :=
  ObjectEdits.isValue (fun h => h.elim) h

theorem PredicateEdits.alike {first second : List UInt8} (h : PredicateEdits first second)
    (depth : Nat) : Alike (Predicate.read depth) first second :=
  (RawPredicate.bears.alike_objects (List.cons_ne_nil _ _) h depth).converted _

theorem PredicateEdits.alike_list {first second : List UInt8}
    (h : ListEdits PredicateEdits first second) (depth : Nat) :
    Alike (Json.list Predicate.read depth) first second :=
  ListEdits.alike PredicateEdits.isValue Predicate.settled (fun h => PredicateEdits.alike h) h depth

/-! ## Groups -/

namespace FilterGroup

theorem settled_fields : ∀ field ∈ shape.fields, ∀ depth, Settled (field.read depth) := by
  intro field hfield depth
  obtain rfl := List.mem_singleton.mp hfield
  exact Field.settled_optional (settled_list Predicate.settled depth)

theorem alike_fields {first second : List UInt8} (h : ListEdits PredicateEdits first second) :
    ∀ field ∈ shape.fields, ∀ depth, Alike (field.read depth) first second := by
  intro field hfield depth
  obtain rfl := List.mem_singleton.mp hfield
  exact Field.alike_optional (PredicateEdits.alike_list h depth)

theorem bears : shape.Bears [] fun name first second =>
    name = "filters" ∧ ListEdits PredicateEdits first second where
  settled := settled_fields
  -- a group has a single field
  independent := Shape.independent_of_pairwise (List.pairwise_singleton _ _)
  null _ hname := absurd hname List.not_mem_nil
  values h := ListEdits.isValue PredicateEdits.isValue h.2
  alike h hfield := alike_fields h.2 _ (Shape.mem_of_field? hfield).1

theorem settled (depth : Nat) : Settled (shape.read depth) :=
  Shape.settled_read (List.cons_ne_nil _ _) settled_fields depth

end FilterGroup

theorem GroupEdits.isValue {first second : List UInt8} (h : GroupEdits first second) :
    IsValue first ∧ IsValue second := by
  rcases h with hobject | harray
  · exact ObjectEdits.isValue FilterGroup.bears.values hobject
  · exact ListEdits.isValue (ListEdits.isValue PredicateEdits.isValue) harray

theorem GroupEdits.alike {first second : List UInt8} (h : GroupEdits first second) (depth : Nat) :
    Alike (FilterGroup.shape.read depth) first second := by
  rcases h with hobject | harray
  · exact FilterGroup.bears.alike_objects (List.cons_ne_nil _ _) hobject depth
  · exact ListEdits.alike_record (ListEdits.isValue PredicateEdits.isValue) (List.cons_ne_nil _ _)
      FilterGroup.settled_fields (fun h => FilterGroup.alike_fields h) harray depth

theorem GroupEdits.alike_list {first second : List UInt8} (h : ListEdits GroupEdits first second)
    (depth : Nat) : Alike (Json.list FilterGroup.shape.read depth) first second :=
  ListEdits.alike GroupEdits.isValue FilterGroup.settled (fun h => GroupEdits.alike h) h depth

/-- An array is not `null`. -/
theorem ListEdits.ne_null {edit : List UInt8 → List UInt8 → Prop} {first second : List UInt8}
    (h : ListEdits edit first second) : first ≠ wordText "null" ∧ second ≠ wordText "null" := by
  obtain ⟨gap, parts, parts', rfl, rfl, -⟩ := h
  have hne (parts : List Spaced) : arrayText gap parts ≠ wordText "null" := fun heq =>
    absurd (List.cons.inj heq).1 (by decide)
  exact ⟨hne parts, hne parts'⟩

/-! ## Bodies -/

namespace SearchBody

theorem settled_fields : ∀ field ∈ shape.fields, ∀ depth, Settled (field.read depth) := by
  simp only [shape, List.forall_mem_cons]
  refine ⟨fun depth => ?_, fun _ => ?_, fun _ => ?_, fun depth => ?_, fun _ => ?_, ?_⟩
  · exact Field.settled_optional (settled_list FilterGroup.settled depth).optional
  · exact Field.settled_optional settled_string.optional
  · exact Field.settled_optional settled_int64.optional
  · exact Field.settled_optional (settled_list (fun _ => settled_string) depth).optional
  · exact Field.settled_optional settled_string.optional
  · exact fun _ h => absurd h List.not_mem_nil

theorem independent : shape.Independent := by
  refine Shape.independent_of_pairwise ?_
  simp only [shape, List.pairwise_cons, List.forall_mem_cons, List.not_mem_nil, false_imp_iff,
    implies_true, List.Pairwise.nil, and_true]
  -- each field with those behind it
  refine ⟨⟨?_, ?_, ?_, ?_⟩, ⟨?_, ?_, ?_⟩, ⟨?_, ?_⟩, ?_⟩
  all_goals exact Field.SetsBy.optional.commutes .optional fun _ _ _ => rfl

theorem alike_filterGroups {first second : List UInt8} (h : ListEdits GroupEdits first second)
    {field : Json.Field SearchBody} (hfield : shape.field? "filterGroups" = some field)
    (depth : Nat) : Alike (field.read depth) first second := by
  obtain ⟨hvalue, hvalue'⟩ := ListEdits.isValue GroupEdits.isValue h
  obtain ⟨hne, hne'⟩ := ListEdits.ne_null h
  obtain rfl := (Option.some.inj hfield).symm
  exact Field.alike_optional ((GroupEdits.alike_list h depth).optional hvalue hvalue' hne hne')

theorem bears : shape.Bears ["filterGroups", "query", "limit", "properties", "after"]
    fun name first second => name = "filterGroups" ∧ ListEdits GroupEdits first second where
  settled := settled_fields
  independent := independent
  null name hname := by
    simp only [List.mem_cons, List.not_mem_nil, or_false] at hname
    rcases hname with rfl | rfl | rfl | rfl | rfl
    · exact ⟨_, rfl, by decide, fun depth => ⟨_, Field.settles_null, rfl⟩⟩
    · exact ⟨_, rfl, by decide, fun depth => ⟨_, Field.settles_null, rfl⟩⟩
    · exact ⟨_, rfl, by decide, fun depth => ⟨_, Field.settles_null, rfl⟩⟩
    · exact ⟨_, rfl, by decide, fun depth => ⟨_, Field.settles_null, rfl⟩⟩
    · exact ⟨_, rfl, by decide, fun depth => ⟨_, Field.settles_null, rfl⟩⟩
  values h := ListEdits.isValue GroupEdits.isValue h.2
  alike h hfield := by
    obtain ⟨rfl, hedits⟩ := h
    exact alike_filterGroups hedits hfield

/-- Bodies that differ by changes are both refused, or both taken for the same. -/
theorem toOption_parse {bytes bytes' : List UInt8} (h : BodyEdits bytes bytes') :
    (parse bytes).toOption = (parse bytes').toOption := by
  obtain ⟨before, behind, first, second, rfl, rfl, hedits⟩ := h
  obtain ⟨outcome, hfirst, hsecond⟩ := bears.alike_objects (List.cons_ne_nil _ _) hedits maxDepth
  rw [parse, parse, hfirst.toOption_read, hsecond.toOption_read]

end SearchBody

end SearchGateway.Query

namespace SearchGateway.Gateway

open SearchGateway.Json
open SearchGateway.Query

/-! ## What the gateway makes of them -/

/-- A body that is an object has a byte that is no whitespace. -/
theorem all_isAsciiSpace_object (before behind gap : Blanks) (ms : List Member) :
    (before.val ++ (objectText gap ms ++ behind.val)).all isAsciiSpace = false := by
  refine List.all_eq_false.mpr ⟨'\x7b'.toUInt8, ?_, by decide⟩
  exact List.mem_append_right _ (List.mem_append_left _ List.mem_cons_self)

/-- Bodies that are not blank and hold the same search get the same verdict. -/
theorem validateBody_congr {bytes bytes' : List UInt8} (hshown : bytes.all isAsciiSpace = false)
    (hshown' : bytes'.all isAsciiSpace = false)
    (h : SearchBody.parse bytes = SearchBody.parse bytes') (endpoint : String) :
    validateBody endpoint bytes = validateBody endpoint bytes' := by
  have hparse : parseSearchBody bytes = parseSearchBody bytes' := by
    rw [parseSearchBody, parseSearchBody, hshown, hshown', h]
  rw [validateBody, validateBody, hparse]

/-- Bodies that differ by changes are accepted for the same searches, and one that is accepted gets
    the same verdict as the other at every endpoint. -/
theorem validateBody_of_edits {bytes bytes' : List UInt8} (h : BodyEdits bytes bytes') :
    (∀ body, SearchBody.parse bytes = .ok body ↔ SearchBody.parse bytes' = .ok body) ∧
      ∀ body, SearchBody.parse bytes = .ok body →
        ∀ endpoint, validateBody endpoint bytes' = validateBody endpoint bytes := by
  have hsame (body : SearchBody) :
      SearchBody.parse bytes = .ok body ↔ SearchBody.parse bytes' = .ok body := by
    rw [← toOption_eq_some_iff, ← toOption_eq_some_iff, SearchBody.toOption_parse h]
  refine ⟨hsame, fun body hparsed => ?_⟩
  have hparsed' := (hsame body).mp hparsed
  refine validateBody_congr ?_ ?_ (hparsed'.trans hparsed.symm)
  all_goals
    obtain ⟨before, behind, -, -, rfl, rfl, gap, ms, ms', -, -, rfl, rfl⟩ := h
    exact all_isAsciiSpace_object before behind gap _

/-- A member with a plain name, without blanks. -/
def plainMember (name : String) (text : List UInt8) : Member :=
  ⟨⟨.none, wordText name, .none⟩, ⟨.none, text, .none⟩⟩

theorem wellFormed_plainMember {name : String} {text : List UInt8} (hname : IsUnescaped name)
    (htext : IsValue text) : (plainMember name text).WellFormed :=
  ⟨hname.isStringBody, htext⟩

/-- The members of a body in another order, a member of a group that means nothing, and a query that
    is `null`. -/
theorem validateBody_of_edits_reordered :
    let body : SearchBody := { filterGroups := some [⟨[]⟩], limit := some 5 }
    let bytes := Text.Utf8.ofString "\x7b\"filterGroups\":[\x7b\x7d],\"limit\":5\x7d"
    let bytes' := Text.Utf8.ofString
      "\x7b\"query\":null,\"limit\":5,\"filterGroups\":[\x7b\"note\":true\x7d]\x7d"
    BodyEdits bytes bytes' ∧ SearchBody.parse bytes = .ok body ∧
      SearchBody.parse bytes' = .ok body ∧
      ∀ endpoint, validateBody endpoint bytes' = validateBody endpoint bytes := by
  intro body bytes bytes'
  have hnames : ∀ name ∈ ["filterGroups", "limit", "note", "query"], IsUnescaped name := by
    decide +kernel
  let group (ms : List Member) : Spaced := ⟨.none, objectText .none ms, .none⟩
  let groups (ms : List Member) : Member :=
    plainMember "filterGroups" (arrayText .none [group ms])
  let limit := plainMember "limit" ['5'.toUInt8]
  let note := plainMember "note" (wordText "true")
  let query := plainMember "query" (wordText "null")
  have hfive : IsValue ['5'.toUInt8] := by
    have hdigits : IsDigits ['5'.toUInt8] := ⟨List.cons_ne_nil _ _, by decide +kernel⟩
    have hwhole : IsWhole ['5'.toUInt8] := ⟨hdigits, by decide +kernel⟩
    exact .unsigned (.mk hwhole .absent .absent)
  have hgroup : GroupEdits (objectText .none []) (objectText .none [note]) := by
    have hnote := hnames "note" (by decide)
    refine .inl ⟨.none, [], [note], by simp, .rel _ _ ?_, rfl, rfl⟩
    exact .unknown (wellFormed_plainMember hnote .trueWord) hnote.names (by decide) []
  have hgroups :
      ListEdits GroupEdits (arrayText .none [group []]) (arrayText .none [group [note]]) :=
    ⟨.none, [group []], [group [note]], rfl, rfl, .cons ⟨rfl, rfl, .inl hgroup⟩ .nil⟩
  have hfilterGroups := hnames "filterGroups" (by decide)
  have hlimit := hnames "limit" (by decide)
  have hquery := hnames "query" (by decide)
  have hedits : BodyEdits bytes bytes' := by
    refine ⟨.none, .none, bytes, bytes', by simp [Blanks.none], by simp [Blanks.none], .none,
      [groups [], limit], [query, limit, groups [note]], ?_, ?_, by decide +kernel,
      by decide +kernel⟩
    · have hvalues := ListEdits.isValue GroupEdits.isValue hgroups
      exact List.forall_mem_cons.mpr ⟨wellFormed_plainMember hfilterGroups hvalues.1,
        List.forall_mem_singleton.mpr (wellFormed_plainMember hlimit hfive)⟩
    · refine .trans _ [groups [note], limit] _ (.rel _ _ ?within)
        (.trans _ [limit, groups [note]] _ (.rel _ _ ?order) (.rel _ _ ?null))
      case within =>
        have hname : Names (groups []).key.text (some "filterGroups") := hfilterGroups.names
        exact .within hname ⟨rfl, hgroups⟩ [limit]
      case order => exact .order (.swap _ _ _)
      case null =>
        refine .null (wellFormed_plainMember hquery .nullWord) hquery.names (by decide) rfl ?_
        exact List.forall_mem_cons.mpr ⟨hlimit.not_names (by decide),
          List.forall_mem_singleton.mpr (hfilterGroups.not_names (by decide))⟩
  have hparsed : SearchBody.parse bytes = .ok body := by decide +kernel
  obtain ⟨hsame, hverdict⟩ := validateBody_of_edits hedits
  exact ⟨hedits, hparsed, (hsame body).mp hparsed, hverdict body hparsed⟩

end SearchGateway.Gateway
