/-
  SearchGateway.Proofs.SelectedItems

  What an answer shows of the objects of a response, and the points of showing it.
  Only the values that are shown have a say in the points, so these can be counted
  on the answer itself.
-/
import Mathlib.Algebra.Order.BigOperators.Group.List
import Mathlib.Algebra.Order.Ring.Nat
import SearchGateway.Backend.Answer
import SearchGateway.Proofs.CostPoints
import SearchGateway.Proofs.Members

namespace SearchGateway.Backend

open SearchGateway.Json (SortedKeys Value)
open SearchGateway.Query (Charge Cost)

/-! ## Items -/

/-- The value of an item for a property; null where it has none. -/
def Item.valueOf (item : Item) (name : String) : Value :=
  (item.properties.lookup name).getD .null

/-- What is shown of an item: an object of its id and the selected properties.  A selected property
    that is called `id` takes the place of the id. -/
structure Item.Shown (item : Item) (properties : List String) (shown : Value) : Prop where
  object : shown = .object shown.members
  sorted : SortedKeys shown.members
  keys : ∀ key, key ∈ shown.members.map Prod.fst ↔ key = "id" ∨ key ∈ properties
  selected : ∀ name ∈ properties, shown.get? name = some (item.valueOf name)
  id : "id" ∉ properties → shown.get? "id" = some (.string item.id)

section Item

variable (item : Item) (properties : List String)

theorem Item.members_select :
    (item.select properties).members =
      (properties.map fun name => (name, item.valueOf name)).foldl
        (fun sorted m => Json.insertMember m.1 m.2 sorted) [("id", .string item.id)] := by
  rw [List.foldl_map]
  rfl

/-- A property that is selected more than once is put in with the same value each time. -/
theorem Item.get?_select {name : String} (h : name ∈ properties) :
    (item.select properties).get? name = some (item.valueOf name) := by
  rw [Value.get?, members_select, Json.lookup_foldl_insertMember, ← List.map_reverse,
    List.lookup_graph _ (List.mem_reverse.mpr h), Option.some_or]

theorem Item.get?_id_select (h : "id" ∉ properties) :
    (item.select properties).get? "id" = some (.string item.id) := by
  have hnone : ((properties.map fun name => (name, item.valueOf name)).reverse).lookup "id" =
      none := by
    rw [List.lookup_eq_none_iff]
    intro m hm
    obtain ⟨name, hname, rfl⟩ := List.mem_map.mp (List.mem_reverse.mp hm)
    rw [bne_iff_ne]
    rintro rfl
    exact h hname
  rw [Value.get?, members_select, Json.lookup_foldl_insertMember, hnone]
  rfl

theorem Item.shown_select : item.Shown properties (item.select properties) where
  object := rfl
  sorted := by
    rw [members_select]
    exact SortedKeys.foldl_insertMember (List.pairwise_singleton _ _)
  keys key := by
    rw [members_select, Json.mem_keys_foldl_insertMember, List.map_map]
    simp
  selected _ h := item.get?_select properties h
  id h := item.get?_id_select properties h

end Item

/-! ## Points -/

/-- The points of a property that is shown with a value: three, or one where the value is null or
    the empty text. -/
def shownPoints : Value → Nat
  | .null => 1
  | .string s => if s = "" then 1 else 3
  | _ => 3

/-- The points of a search, as they are counted on the items that it shows. -/
def countedPoints (properties : List String) (items : List Value) : Nat :=
  300 + 30 * items.length +
    (items.map fun shown =>
      (properties.map fun name => shownPoints ((shown.get? name).getD .null)).sum).sum

theorem points_isPopulated (item : Item) (name : String) :
    (Charge.property (item.isPopulated name)).points = shownPoints (item.valueOf name) := by
  unfold Item.isPopulated Item.valueOf
  cases item.properties.lookup name with
  | none => rfl
  | some v =>
    cases v with
    | string s =>
      by_cases hs : s = ""
      · subst hs
        rfl
      · have hfilled : Item.isFilled (some (.string s)) = true := bne_iff_ne.mpr hs
        rw [hfilled, Option.getD_some, shownPoints, if_neg hs]
        rfl
    | _ => rfl

/-- The points of showing an item. -/
def Item.points (properties : List String) (item : Item) : Nat :=
  30 + (properties.map fun name => shownPoints (item.valueOf name)).sum

theorem sum_points_charges (item : Item) (properties : List String) :
    ((item.charges properties).map Charge.points).sum = item.points properties := by
  simp only [Item.charges, List.map_cons, List.map_map, List.sum_cons, Function.comp_def,
    points_isPopulated]
  rfl

theorem Item.points_eq (item : Item) (properties : List String) :
    item.points properties = 30 + (properties.length + 2 * properties.countP item.isPopulated) := by
  simp only [points, ← points_isPopulated, Cost.sum_points_property]

section Response

variable (response : SearchResponse) (properties : List String)

theorem used_cost :
    (response.cost properties).used = 300 + (response.results.map (Item.points properties)).sum := by
  rw [SearchResponse.cost, Cost.used_chargeAll, List.map_flatMap, List.flatMap_def,
    List.sum_flatten, List.map_map]
  simp only [Function.comp_def, sum_points_charges]
  rfl

theorem countedPoints_select :
    countedPoints properties (response.select properties) =
      300 + (response.results.map (Item.points properties)).sum := by
  have hshown : ∀ item : Item, (properties.map fun name =>
      shownPoints (((item.select properties).get? name).getD .null)).sum =
        (properties.map fun name => shownPoints (item.valueOf name)).sum := by
    intro item
    refine congrArg List.sum (List.map_congr_left fun name hname => ?_)
    rw [item.get?_select properties hname, Option.getD_some]
  have hsum : (response.results.map (Item.points properties)).sum =
      30 * response.results.length + (response.results.map fun item =>
        (properties.map fun name => shownPoints (item.valueOf name)).sum).sum := by
    unfold Item.points
    rw [List.sum_map_add, List.map_const', List.sum_replicate, Nat.nsmul_eq_mul, Nat.mul_comm]
  rw [countedPoints, SearchResponse.select, List.length_map, List.map_map, hsum, Nat.add_assoc]
  simp only [Function.comp_def, hshown]

theorem account_eq_cost :
    Cost.account response.results.length properties.length
        (response.results.map fun item => properties.countP item.isPopulated) =
      response.cost properties := by
  have hpoints : ((List.range response.results.length).map fun i =>
      30 + (properties.length + 2 * min ((response.results.map fun item =>
        properties.countP item.isPopulated)[i]?.getD 0) properties.length)) =
      response.results.map (Item.points properties) := by
    apply List.ext_getElem
    · simp
    · intro i hi _
      have hlt : i < response.results.length := by simpa using hi
      simp [hlt, Item.points_eq, List.countP_le_length]
  have hused := Cost.used_account response.results.length properties.length
    (response.results.map fun item => properties.countP item.isPopulated)
  rw [hpoints, ← used_cost] at hused
  exact congrArg Cost.mk hused

theorem used_cost_bounds :
    300 + response.results.length * (30 + properties.length) ≤ (response.cost properties).used ∧
      (response.cost properties).used ≤
        300 + response.results.length * (30 + 3 * properties.length) := by
  have hitem : ∀ points ∈ response.results.map (Item.points properties),
      30 + properties.length ≤ points ∧ points ≤ 30 + 3 * properties.length := by
    intro points hpoints
    obtain ⟨item, -, rfl⟩ := List.mem_map.mp hpoints
    have hcount := List.countP_le_length (p := item.isPopulated) (l := properties)
    rw [item.points_eq]
    omega
  have hlow := List.card_nsmul_le_sum _ _ fun points h => (hitem points h).1
  have hhigh := List.sum_le_card_nsmul _ _ fun points h => (hitem points h).2
  rw [List.length_map, Nat.nsmul_eq_mul] at hlow hhigh
  rw [used_cost]
  omega

/-- Responses whose items have the same values for the selected properties cost the same. -/
theorem cost_congr {other : SearchResponse}
    (h : List.Forall₂ (fun item item' : Item => ∀ name ∈ properties,
      item'.valueOf name = item.valueOf name) response.results other.results) :
    other.cost properties = response.cost properties := by
  have hitem : ∀ item item' : Item, (∀ name ∈ properties, item'.valueOf name = item.valueOf name) →
      item'.points properties = item.points properties := by
    intro item item' hsame
    rw [Item.points, Item.points, List.map_congr_left fun name hname => by rw [hsame name hname]]
  have hpoints : other.results.map (Item.points properties) =
      response.results.map (Item.points properties) := by
    rw [← List.forall₂_eq_eq_eq, List.forall₂_map_left_iff, List.forall₂_map_right_iff]
    exact (h.imp hitem).flip
  have hused : (other.cost properties).used = (response.cost properties).used := by
    rw [used_cost, used_cost, hpoints]
  exact congrArg Cost.mk hused

/-- An answer shows every item of a response in its place, with its id and the selected properties.
    The points of the search can be counted on what is shown, and they are those of the whole
    answer in one; they lie within bounds that the numbers of items and properties give, and only
    the values of the selected properties have a say in them. -/
theorem selection_and_points :
    List.Forall₂ (fun item shown => item.Shown properties shown) response.results
        (response.select properties) ∧
      (response.cost properties).used = countedPoints properties (response.select properties) ∧
      response.cost properties =
        Cost.account response.results.length properties.length
          (response.results.map fun item => properties.countP item.isPopulated) ∧
      (300 + response.results.length * (30 + properties.length) ≤ (response.cost properties).used ∧
        (response.cost properties).used ≤
          300 + response.results.length * (30 + 3 * properties.length)) ∧
      ∀ other : SearchResponse,
        List.Forall₂ (fun item item' : Item => ∀ name ∈ properties,
          item'.valueOf name = item.valueOf name) response.results other.results →
        other.cost properties = response.cost properties := by
  refine ⟨?_, ?_, (account_eq_cost response properties).symm,
    used_cost_bounds response properties, fun other h => cost_congr response properties h⟩
  · rw [SearchResponse.select, List.forall₂_map_right_iff, List.forall₂_same]
    exact fun item _ => item.shown_select properties
  · rw [used_cost, countedPoints_select]

end Response

/-- A name that is selected twice is shown once and paid for twice, and a selected `id` is null where
    no property is called so. -/
example :
    let response : SearchResponse := { results := [⟨"1", [("email", .string "a")]⟩] }
    response.select ["email", "id", "email"] = [.object [("email", .string "a"), ("id", .null)]] ∧
      (response.cost ["email", "id", "email"]).used = 337 := by
  refine ⟨?_, by decide⟩
  rfl

end SearchGateway.Backend
