/-
  SearchGateway.Proofs.ResponseText

  What an answer of the backend says, and what is written of it.  An answer whose numbers
  are integers is kept: its objects in their order, with their ids and the last value of
  each property, and its total.  What is written of it is read as the same answer.
-/
import SearchGateway.Backend.Response
import SearchGateway.Proofs.IntegralText

namespace SearchGateway.Backend

open SearchGateway.Json
open SearchGateway.Text.Utf8 (encode ofString)

/-! ## Objects -/

/-- What the parts of a text say about an object of an answer.  Its id has to be there. -/
structure Item.GivenBy (parts : List Part) (item : Item) : Prop where
  id : ∃ text, textsOf "id" parts = [text] ∧ HoldsString text item.id
  properties : Gives (fun text properties => HoldsValue text (.object properties)) "properties" []
    parts item.properties

/-- A text holds an object of an answer. -/
def HoldsItem (text : List UInt8) (item : Item) : Prop :=
  ∃ parts, ListsParts ["id", "properties"] text parts ∧ item.GivenBy parts

namespace Item

theorem regular : shape.Regular where
  settled := by
    simp only [shape, List.forall_mem_cons]
    refine ⟨fun _ => ?_, fun depth => ?_, fun _ h => absurd h List.not_mem_nil⟩
    · exact Field.settled_mandatory settled_string
    · exact Field.settled_optional (settled_map depth)
  nodup := by decide
  ne := List.cons_ne_nil _ _

theorem owns_id : shape.Owns "id" (fun _ => string) Item.id where
  field := ⟨fun id item => { item with id }, rfl, fun _ _ => rfl⟩
  others := by
    simp only [shape, List.forall_mem_cons]
    exact ⟨fun hne => absurd rfl hne, fun _ => .optional fun _ _ => rfl,
      fun _ h => absurd h List.not_mem_nil⟩

theorem owns_properties : shape.Owns "properties" Json.map properties where
  field := ⟨_, rfl, fun _ _ => rfl⟩
  others := by
    simp only [shape, List.forall_mem_cons]
    exact ⟨fun _ => .mandatory fun _ _ => rfl, fun hne => absurd rfl hne,
      fun _ h => absurd h List.not_mem_nil⟩

/-- An object of an answer is what its text holds, and its properties are read back as they are. -/
theorem holds_of_isReadAs {depth : Nat} {text : List UInt8} (htext : IsIntegral text) {item : Item}
    (hread : IsReadAs (shape.read (depth + 2)) text item) :
    HoldsItem text item ∧ (Value.object item.properties).IsStable (depth + 1) := by
  obtain ⟨parts, hlists, hcomplete, htakes, hparts⟩ :=
    regular.exists_parts (fun _ => IsIntegral.isValue) htext.opens hread
  have hid : ∃ text, textsOf "id" parts = [text] ∧ HoldsString text item.id := by
    obtain ⟨value, hone, hvalue⟩ :=
      (htakes.gives owns_id).exists_part (hcomplete _ List.mem_cons_self rfl)
    have hmem : value ∈ textsOf "id" parts := by simp [hone]
    exact ⟨value, hone, (settles_string_iff (hparts _ value hmem).isValue).mp hvalue⟩
  have hproperties : Gives (fun text properties => HoldsValue text (.object properties) ∧
      (Value.object properties).IsStable (depth + 1)) "properties" [] parts item.properties :=
    (htakes.gives owns_properties).imp fun value hvalue properties hread =>
      (hparts _ value hvalue).holdsValue
        (settles_value_of_map (hparts _ value hvalue).isValue hread)
  refine ⟨⟨parts, hlists, hid, hproperties.imp fun _ _ _ h => h.1⟩, ?_⟩
  exact hproperties.holds (p := fun properties => (Value.object properties).IsStable (depth + 1))
    (.object List.Pairwise.nil fun _ h => absurd h List.not_mem_nil) fun _ _ h => h.2

/-- An object of an answer is read from what is written of it. -/
theorem reads {depth : Nat} {item : Item}
    (h : (Value.object item.properties).IsStable (depth + 1)) :
    Reads (shape.read (depth + 2)) item.toJson item := by
  have hid : shape.Sets (depth + 1) ("id", .string item.id) fun i => { i with id := item.id } :=
    Shape.sets_mandatory (fun _ => string) (fun id (i : Item) => { i with id }) rfl
      (reads_string item.id)
  have hproperties : shape.Sets (depth + 1) ("properties", .object item.properties)
      fun i => { i with properties := item.properties } :=
    Shape.sets_optional Json.map (fun properties (i : Item) => { i with properties }) rfl
      h.reads_map
  refine Reads.record (.cons hid (.cons hproperties .nil)) (by simp) fun field hfield _ => ?_
  simp only [shape, List.mem_cons, List.not_mem_nil, or_false] at hfield
  rcases hfield with rfl | rfl
  · exact List.mem_cons_self
  · exact List.mem_cons_of_mem _ List.mem_cons_self

theorem fits_toJson {depth : Nat} {item : Item}
    (h : (Value.object item.properties).IsStable (depth + 1)) : item.toJson.Fits (depth + 2) :=
  .object (List.forall_mem_cons.mpr ⟨.string, List.forall_mem_singleton.mpr h.fits⟩)

end Item

/-! ## Answers -/

/-- What the parts of a text say about an answer. -/
structure SearchResponse.GivenBy (parts : List Part) (response : SearchResponse) : Prop where
  total : Gives (HoldsOption (HoldsNatural 64)) "total" none parts response.total
  results : Gives (HoldsList HoldsItem) "results" [] parts response.results
  paging : Gives (HoldsOption HoldsValue) "paging" none parts response.paging

/-- A text holds an answer. -/
def HoldsResponse (text : List UInt8) (response : SearchResponse) : Prop :=
  ∃ parts, ListsParts ["total", "results", "paging"] text parts ∧ response.GivenBy parts

namespace SearchResponse

theorem lenient : shape.Lenient where
  settled := by
    simp only [shape, List.forall_mem_cons]
    refine ⟨fun _ => ?_, fun depth => ?_, fun depth => ?_, fun _ h => absurd h List.not_mem_nil⟩
    · exact Field.settled_optional (settled_natural 64 "u64").optional
    · exact Field.settled_optional
        (settled_list (fun depth => Item.regular.settled_read depth) depth)
    · exact Field.settled_optional (settled_value depth).optional
  optional := by
    simp only [shape, List.forall_mem_cons]
    exact ⟨rfl, rfl, rfl, fun _ h => absurd h List.not_mem_nil⟩
  nodup := by decide
  ne := List.cons_ne_nil _ _

theorem owns_total : shape.Owns "total" (fun _ => Json.optional (natural 64 "u64")) total where
  field := ⟨_, rfl, fun _ _ => rfl⟩
  others := by
    simp only [shape, List.forall_mem_cons]
    exact ⟨fun hne => absurd rfl hne, fun _ => .optional fun _ _ => rfl,
      fun _ => .optional fun _ _ => rfl, fun _ h => absurd h List.not_mem_nil⟩

theorem owns_results : shape.Owns "results" (Json.list Item.shape.read) results where
  field := ⟨_, rfl, fun _ _ => rfl⟩
  others := by
    simp only [shape, List.forall_mem_cons]
    exact ⟨fun _ => .optional fun _ _ => rfl, fun hne => absurd rfl hne,
      fun _ => .optional fun _ _ => rfl, fun _ h => absurd h List.not_mem_nil⟩

theorem owns_paging : shape.Owns "paging" (fun depth => Json.optional (value depth)) paging where
  field := ⟨_, rfl, fun _ _ => rfl⟩
  others := by
    simp only [shape, List.forall_mem_cons]
    exact ⟨fun _ => .optional fun _ _ => rfl, fun _ => .optional fun _ _ => rfl,
      fun hne => absurd rfl hne, fun _ h => absurd h List.not_mem_nil⟩

/-- An answer that is read back from what is written of it: its total has 64 bits, and its values
    are stable within the levels that are left for them. -/
structure IsStable (depth : Nat) (response : SearchResponse) : Prop where
  total : ∀ n ∈ response.total, n < Nat.pow 2 64
  results : ∀ item ∈ response.results, (Value.object item.properties).IsStable (depth + 1)
  paging : ∀ v ∈ response.paging, v ≠ .null ∧ v.IsStable (depth + 3)

theorem holds_results {depth : Nat} {text : List UInt8} (htext : IsIntegral text)
    {items : List Item} (hread : IsReadAs (Json.list Item.shape.read (depth + 3)) text items) :
    HoldsList HoldsItem text items ∧
      ∀ item ∈ items, (Value.object item.properties).IsStable (depth + 1) := by
  obtain ⟨gap, parts, rfl, hparts⟩ := exists_items_of_list (Item.regular.settled_read (depth + 2))
    (fun _ => IsIntegral.isValue) htext.opens hread
  have hitems := hparts.imp fun _ _ h => And.intro h.1 (Item.holds_of_isReadAs h.1 h.2)
  refine ⟨⟨gap, parts, rfl, hitems.imp fun _ _ h => ⟨h.1.isValue, h.2.1⟩⟩, fun item hitem => ?_⟩
  obtain ⟨part, -, -, -, hstable⟩ := exists_of_mem_right hitems hitem
  exact hstable

theorem holds_paging {depth : Nat} {text : List UInt8} (htext : IsIntegral text)
    {paging : Option Value} (hread : IsReadAs (Json.optional (value depth)) text paging) :
    HoldsOption HoldsValue text paging ∧ ∀ v ∈ paging, v ≠ .null ∧ v.IsStable depth := by
  have hoption := (isReadAs_optional_iff (settled_value depth) htext.isValue Iff.rfl).mp hread
  have hholds : HoldsOption (fun text v => HoldsValue text v ∧ v.IsStable depth) text paging :=
    hoption.imp fun v hv => htext.holdsValue hv
  refine ⟨hholds.imp fun _ h => h.1, fun v hv => ?_⟩
  cases hholds with
  | null => cases hv
  | value hnull h =>
    obtain rfl := Option.some.inj hv
    refine ⟨?_, h.2⟩
    rintro rfl
    cases h.1 with
    | nullWord => exact hnull rfl

/-- An answer is what its text holds, and it can be written. -/
theorem holds_of_isReadAs {depth : Nat} {text : List UInt8} (htext : IsIntegral text)
    {response : SearchResponse} (hread : IsReadAs (shape.read (depth + 4)) text response) :
    HoldsResponse text response ∧ response.IsStable depth := by
  obtain ⟨parts, hlists, -, htakes, hparts⟩ :=
    lenient.exists_parts (fun _ => IsIntegral.isValue) htext.opens hread
  have htotal : Gives (HoldsOption (HoldsNatural 64)) "total" none parts response.total :=
    (htakes.gives owns_total).imp fun value hvalue total hread =>
      (isReadAs_optional_iff (settled_natural 64 "u64") (hparts _ value hvalue).isValue
        (settles_natural_iff (Nat.le_refl 64) (hparts _ value hvalue).isValue)).mp hread
  have hresults := (htakes.gives owns_results).imp fun value hvalue items hread =>
    holds_results (hparts _ value hvalue) hread
  have hpaging := (htakes.gives owns_paging).imp fun value hvalue paging hread =>
    holds_paging (hparts _ value hvalue) hread
  refine ⟨⟨parts, hlists, htotal, hresults.imp fun _ _ _ h => h.1, hpaging.imp fun _ _ _ h => h.1⟩,
    ?_, ?_, ?_⟩
  · refine htotal.holds (p := fun total => ∀ n ∈ total, n < Nat.pow 2 64) nofun ?_
    intro text total h n hn
    cases h with
    | null => cases hn
    | value _ h =>
      obtain rfl := Option.some.inj hn
      exact h.1
  · exact hresults.holds
      (p := fun items => ∀ item ∈ items, (Value.object item.properties).IsStable (depth + 1))
      (fun _ h => absurd h List.not_mem_nil) fun _ _ h => h.2
  · exact hpaging.holds
      (p := fun paging => ∀ v ∈ paging, v ≠ .null ∧ v.IsStable (depth + 3)) nofun fun _ _ h => h.2

/-- A stable answer is read from what is written of it. -/
theorem IsStable.reads {depth : Nat} {response : SearchResponse} (h : response.IsStable depth) :
    Reads (shape.read (depth + 4)) response.toJson response := by
  have htotal : ∀ n ∈ response.total, shape.Sets (depth + 3) ("total", .ofNat n)
      fun r => { r with total := some n } := fun n hn =>
    Shape.sets_optional (fun _ => Json.optional (natural 64 "u64"))
      (fun total (r : SearchResponse) => { r with total }) rfl
      ((reads_natural "u64" (h.total n hn) (Nat.le_refl 64)).optional (head?_text_ne_n nofun))
  have hresults : shape.Sets (depth + 3) ("results", .array (response.results.map Item.toJson))
      fun r => { r with results := response.results } := by
    refine Shape.sets_optional (Json.list Item.shape.read)
      (fun results (r : SearchResponse) => { r with results }) rfl (Reads.list ?_)
    rw [List.forall₂_map_left_iff, List.forall₂_same]
    exact fun item hitem => Item.reads (h.results item hitem)
  have hpaging : ∀ v ∈ response.paging, shape.Sets (depth + 3) ("paging", v)
      fun r => { r with paging := some v } := fun v hv =>
    Shape.sets_optional (fun depth => Json.optional (value depth))
      (fun paging (r : SearchResponse) => { r with paging }) rfl
      ((h.paging v hv).2.reads.optional (head?_text_ne_n (h.paging v hv).1))
  have hsets := List.rel_append (List.rel_append (Shape.sets_option htotal) (.cons hresults .nil))
    (Shape.sets_option hpaging)
  have hread := Reads.record hsets ?nodup fun field hfield hrequired => ?missing
  case nodup => cases response.total <;> cases response.paging <;> simp
  case missing =>
    rw [lenient.optional field hfield] at hrequired
    cases hrequired
  -- a part that is left out has the value of the initial answer
  obtain ⟨total, results, paging⟩ := response
  cases total <;> cases paging <;> exact hread

/-- What is written of a stable answer is no deeper than may be read. -/
theorem IsStable.fits_toJson {depth : Nat} {response : SearchResponse}
    (h : response.IsStable depth) : response.toJson.Fits (depth + 4) := by
  refine .object (List.forall_mem_append.mpr ⟨List.forall_mem_append.mpr ⟨?_, ?_⟩, ?_⟩)
  · intro m hm
    obtain ⟨n, hn, rfl⟩ := Option.map_eq_some_iff.mp (Option.mem_toList.mp hm)
    have hsize : n < 0x10000000000000000 := h.total n hn
    exact .int (Int.le_trans (by decide) (Int.natCast_nonneg n)) (Int.ofNat_lt.mpr hsize)
  · refine List.forall_mem_singleton.mpr (.array (List.forall_mem_map.mpr fun item hitem => ?_))
    exact Item.fits_toJson (h.results item hitem)
  · intro m hm
    obtain ⟨v, hv, rfl⟩ := Option.map_eq_some_iff.mp (Option.mem_toList.mp hm)
    exact (h.paging v hv).2.fits

end SearchResponse

end SearchGateway.Backend
