/-
  SearchGateway.Proofs.CostPoints

  The points of a sequence of charges are the sum of the points of each, so the cost
  of a whole answer has a closed form, and it does not matter in which order the
  charges of the answer are made.
-/
import Mathlib.Algebra.BigOperators.Ring.List
import Mathlib.Algebra.Order.Ring.Nat
import SearchGateway.Query.Cost

namespace SearchGateway.Query

namespace Cost

/-! ## Sequences of charges -/

theorem used_chargeAll (cost : Cost) (charges : List Charge) :
    (cost.chargeAll charges).used = cost.used + (charges.map Charge.points).sum := by
  induction charges generalizing cost with
  | nil => rfl
  | cons c charges ih =>
    have hstep : cost.chargeAll (c :: charges) = (cost.charge c).chargeAll charges := rfl
    rw [hstep, ih, List.map_cons, List.sum_cons, ← Nat.add_assoc]
    rfl

/-- Every property costs a point, and two more where it has a value. -/
theorem sum_points_property {α : Type} (populated : α → Bool) (properties : List α) :
    (properties.map fun name => (Charge.property (populated name)).points).sum =
      properties.length + 2 * properties.countP populated := by
  induction properties with
  | nil => rfl
  | cons name properties ih =>
    rw [List.map_cons, List.sum_cons, ih, List.length_cons, List.countP_cons]
    cases populated name <;> simp only [Charge.points, Bool.false_eq_true, if_false, if_true] <;>
      omega

/-! ## Whole answers -/

/-- Of the properties of an object those with a value come first. -/
theorem map_property_range {filled properties : Nat} (h : filled ≤ properties) :
    ((List.range properties).map fun slot => Charge.property (decide (slot < filled))) =
      List.replicate filled (.property true) ++
        List.replicate (properties - filled) (.property false) := by
  obtain ⟨others, rfl⟩ := Nat.exists_eq_add_of_le h
  have hfirst : (List.range filled).map (fun slot => Charge.property (decide (slot < filled))) =
      List.replicate filled (.property true) := by
    rw [List.map_congr_left fun slot hslot => by rw [decide_eq_true (List.mem_range.mp hslot)],
      List.map_const', List.length_range]
  have hlast : (List.range others).map
      (fun slot => Charge.property (decide (filled + slot < filled))) =
        List.replicate others (.property false) := by
    rw [List.map_congr_left fun slot _ => by
      rw [decide_eq_false (Nat.not_lt.mpr (Nat.le_add_right filled slot))], List.map_const',
      List.length_range]
  rw [List.range_add, List.map_append, List.map_map, Nat.add_sub_cancel_left, hfirst]
  exact congrArg _ hlast

theorem chargeAll_append (cost : Cost) (charges more : List Charge) :
    cost.chargeAll (charges ++ more) = (cost.chargeAll charges).chargeAll more :=
  List.foldl_append

/-- The properties of an object are charged in two runs: those with a value, and the others. -/
theorem chargeObject_eq (cost : Cost) (properties populated : Nat) :
    cost.chargeObject properties populated =
      ((cost.charge .object).chargeTimes (min populated properties) (.property true)).chargeTimes
        (properties - min populated properties) (.property false) := by
  have hslots : cost.chargeObject properties populated = (cost.charge .object).chargeAll
      ((List.range properties).map fun slot =>
        .property (decide (slot < min populated properties))) := List.foldl_map.symm
  rw [hslots, map_property_range (Nat.min_le_right _ _), chargeAll_append,
    chargeTimes_eq_chargeAll, chargeTimes_eq_chargeAll]

theorem used_chargeObject (cost : Cost) (properties populated : Nat) :
    (cost.chargeObject properties populated).used =
      cost.used + (30 + (properties + 2 * min populated properties)) := by
  rw [chargeObject_eq]
  simp only [chargeTimes, charge, Charge.points]
  omega

theorem used_chargeObjects (properties objects : Nat) (populated : List Nat) (cost : Cost) :
    (chargeObjects properties objects populated cost).used =
      cost.used + ((List.range objects).map fun i =>
        30 + (properties + 2 * min (populated[i]?.getD 0) properties)).sum := by
  induction objects generalizing populated cost with
  | zero => rfl
  | succ objects ih =>
    rw [List.range_succ_eq_map, List.map_cons, List.sum_cons, List.map_map, ← Nat.add_assoc]
    -- the first object is charged, and the others see the rest of the list
    cases populated with
    | nil =>
      rw [chargeObjects, ih, used_chargeObject]
      rfl
    | cons n populated =>
      rw [chargeObjects, ih, used_chargeObject]
      rfl

theorem used_account (objects properties : Nat) (populated : List Nat) :
    (account objects properties populated).used =
      300 + ((List.range objects).map fun i =>
        30 + (properties + 2 * min (populated[i]?.getD 0) properties)).sum :=
  used_chargeObjects properties objects populated (zero.charge .search)

/-! ## Charges in any order -/

/-- The points depend only on how often each charge is made. -/
theorem sum_points_eq_counts (charges : List Charge) :
    (charges.map Charge.points).sum = 300 * charges.count .search + 30 * charges.count .object +
      3 * charges.count (.property true) + charges.count (.property false) := by
  induction charges with
  | nil => rfl
  | cons c charges ih =>
    rw [List.map_cons, List.sum_cons, ih]
    rcases c with _ | _ | (_ | _)
    all_goals
      simp only [List.count_cons, beq_self_eq_true, if_true, Charge.points, beq_iff_eq,
        reduceCtorEq, Charge.property.injEq, if_false, Bool.false_eq_true, Bool.true_eq_false]
      omega

/-- How many of the wanted properties of an object count as having a value: as many as the list
    says, but not more than are wanted. -/
def filledAt (properties : Nat) (populated : List Nat) (i : Nat) : Nat :=
  min (populated[i]?.getD 0) properties

/-- Some charges are those of a whole answer, in any order. -/
structure ChargesOf (objects properties : Nat) (populated : List Nat) (charges : List Charge) :
    Prop where
  search : charges.count .search = 1
  object : charges.count .object = objects
  filled : charges.count (.property true) =
    ((List.range objects).map fun i => filledAt properties populated i).sum
  empty : charges.count (.property false) =
    ((List.range objects).map fun i => properties - filledAt properties populated i).sum

/-- The points of a whole answer, in closed form. -/
def answerPoints (objects properties : Nat) (populated : List Nat) : Nat :=
  300 + 30 * objects +
    ((List.range objects).map fun i => properties + 2 * filledAt properties populated i).sum

theorem used_account_eq (objects properties : Nat) (populated : List Nat) :
    (account objects properties populated).used = answerPoints objects properties populated := by
  rw [used_account, answerPoints, List.sum_map_add, List.map_const', List.sum_replicate,
    List.length_range, Nat.nsmul_eq_mul, Nat.mul_comm objects, Nat.add_assoc]
  rfl

/-- An object costs as much as its properties with a value and those without one. -/
theorem ChargesOf.sum_points {objects properties : Nat} {populated : List Nat}
    {charges : List Charge} (h : ChargesOf objects properties populated charges) :
    (charges.map Charge.points).sum = answerPoints objects properties populated := by
  have hsplit : ((List.range objects).map fun i =>
      properties + 2 * filledAt properties populated i).sum =
        3 * ((List.range objects).map fun i => filledAt properties populated i).sum +
          ((List.range objects).map fun i =>
            properties - filledAt properties populated i).sum := by
    rw [← List.sum_map_mul_left, ← List.sum_map_add]
    refine congrArg List.sum (List.map_congr_left fun i _ => ?_)
    have hle : filledAt properties populated i ≤ properties := Nat.min_le_right _ _
    omega
  rw [sum_points_eq_counts, h.search, h.object, h.filled, h.empty, answerPoints, hsplit]
  omega

/-- The charges of a whole answer one object after the other, and the wanted properties of an object
    one after the other, first those that have a value. -/
def chargesInOrder (objects properties : Nat) (populated : List Nat) : List Charge :=
  .search :: (List.range objects).flatMap fun i =>
    .object :: (List.range properties).map fun slot =>
      .property (decide (slot < filledAt properties populated i))

/-- The charges in order are those of the answer. -/
theorem chargesOf_inOrder (objects properties : Nat) (populated : List Nat) :
    ChargesOf objects properties populated (chargesInOrder objects properties populated) := by
  have hobject (i : Nat) := map_property_range (Nat.min_le_right (populated[i]?.getD 0) properties)
  unfold chargesInOrder filledAt
  simp only [hobject]
  constructor
  all_goals
    simp [List.count_flatMap, List.count_replicate, Function.comp_def, filledAt]

/-! ## Counting in words -/

/-- Adds the points of a charge to a word of 64 bits. -/
def chargeWord (word : UInt64) (c : Charge) : UInt64 :=
  word + .ofNat c.points

/-- A word does not overflow on the way to a sum that fits. -/
theorem toNat_foldl_chargeWord (charges : List Charge) (word : UInt64)
    (h : word.toNat + (charges.map Charge.points).sum < UInt64.size) :
    (charges.foldl chargeWord word).toNat = word.toNat + (charges.map Charge.points).sum := by
  induction charges generalizing word with
  | nil => rfl
  | cons c charges ih =>
    have hsize : UInt64.size = 0x10000000000000000 := rfl
    rw [List.map_cons, List.sum_cons, ← Nat.add_assoc] at h ⊢
    have hword : (chargeWord word c).toNat = word.toNat + c.points := by
      rw [chargeWord, UInt64.toNat_add, UInt64.toNat_ofNat', Nat.add_mod_mod]
      exact Nat.mod_eq_of_lt (by omega)
    rw [List.foldl_cons, ih _ (by rwa [hword]), hword]

/-! ## Accounts -/

/-- **Accounts.**  The points of a whole answer are 300, 30 for each object and, for each of its
    wanted properties, one or three.  They are the points of charging the objects one after the
    other and of any other order of the same charges.  At every point of any charges the points used
    are the sum of those charged so far; no charge takes any away, whether the advertised points are
    exceeded or not, and as long as they fit a word of 64 bits counts them all. -/
theorem account_charges (objects properties : Nat) (populated : List Nat) :
    ((account objects properties populated).used = 300 + 30 * objects +
      ((List.range objects).map fun i =>
        properties + 2 * min (populated[i]?.getD 0) properties).sum) ∧
    account objects properties populated =
      zero.chargeAll (chargesInOrder objects properties populated) ∧
    (∀ charges, ChargesOf objects properties populated charges →
      (zero.chargeAll charges).used = (account objects properties populated).used) ∧
    ∀ charges, (zero.chargeAll charges).used = (charges.map Charge.points).sum ∧
      ((zero.chargeAll charges).exceeded = true ↔ 30000 < (zero.chargeAll charges).used) ∧
      (∀ more, (zero.chargeAll charges).used ≤ (zero.chargeAll (charges ++ more)).used) ∧
      ((zero.chargeAll charges).used < UInt64.size →
        (charges.foldl chargeWord 0).toNat = (zero.chargeAll charges).used) := by
  have hused (charges : List Charge) :
      (zero.chargeAll charges).used = (charges.map Charge.points).sum := by
    rw [used_chargeAll]
    exact Nat.zero_add _
  have hcharges (charges : List Charge) (h : ChargesOf objects properties populated charges) :
      (zero.chargeAll charges).used = (account objects properties populated).used := by
    rw [hused, h.sum_points, used_account_eq]
  refine ⟨used_account_eq objects properties populated, ?_, hcharges,
    fun charges => ⟨hused charges, ?_, fun more => ?_, fun hsize => ?_⟩⟩
  · exact congrArg mk (hcharges _ (chargesOf_inOrder objects properties populated)).symm
  · exact decide_eq_true_iff
  · rw [hused, hused, List.map_append, List.sum_append]
    exact Nat.le_add_right _ _
  · rw [hused] at hsize ⊢
    rw [toNat_foldl_chargeWord charges 0 (by simpa using hsize)]
    exact Nat.zero_add _

/-- Two objects with three properties, of which the list says more than there are. -/
theorem account_charges_shuffled :
    let charges : List Charge := [.property true, .object, .property false, .property true,
      .property false, .search, .property true, .object, .property true]
    ChargesOf 2 3 [7, 1, 9] charges ∧ (zero.chargeAll charges).used = 374 ∧
      (account 2 3 [7, 1, 9]).used = 374 ∧ (charges.foldl chargeWord 0).toNat = 374 := by
  intro charges
  obtain ⟨-, -, hany, hall⟩ := account_charges 2 3 [7, 1, 9]
  obtain ⟨hsum, -, -, hword⟩ := hall charges
  have hcharges : ChargesOf 2 3 [7, 1, 9] charges := by
    constructor <;> decide
  have hused : (zero.chargeAll charges).used = 374 := hsum.trans (by decide)
  refine ⟨hcharges, hused, (hany charges hcharges).symm.trans hused, ?_⟩
  rw [hword (by rw [hused]; decide), hused]

end Cost

end SearchGateway.Query
