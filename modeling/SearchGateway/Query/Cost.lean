/-
  SearchGateway.Query.Cost

  Cost points of a completed search.  They are told to the caller and reject
  nothing.
-/
import SearchGateway.Json.Value

namespace SearchGateway.Query

/-- The cost points used so far. -/
structure Cost where
  used : Nat
  deriving DecidableEq, Repr

/-- Something that costs points. -/
inductive Charge where
  /-- One search. -/
  | search
  /-- One object of the answer. -/
  | object
  /-- One wanted property of an object, which has a value or has none. -/
  | property (populated : Bool)
  deriving DecidableEq, Repr

/-- The points of a charge. -/
def Charge.points : Charge → Nat
  | search => 300
  | object => 30
  | property true => 3
  | property false => 1

namespace Cost

/-- The points that a caller is told to stay within. -/
def max : Nat := 30000

/-- Nothing used. -/
def zero : Cost := ⟨0⟩

/-- Adds a charge. -/
def charge (cost : Cost) (c : Charge) : Cost :=
  ⟨cost.used + c.points⟩

/-- Adds some charges. -/
def chargeAll (cost : Cost) (charges : List Charge) : Cost :=
  charges.foldl charge cost

/-- Whether the points go beyond the advertised ones. -/
def exceeded (cost : Cost) : Bool :=
  max < cost.used

/-- The JSON object of a cost. -/
def toJson (cost : Cost) : Json.Value :=
  .object [("used", .ofNat cost.used), ("max", .ofNat max)]

/-- Adds a charge a number of times. -/
def chargeTimes (cost : Cost) (times : Nat) (c : Charge) : Cost :=
  ⟨cost.used + times * c.points⟩

/-- Adding a charge a number of times is adding it again and again. -/
theorem chargeTimes_eq_chargeAll (cost : Cost) (times : Nat) (c : Charge) :
    cost.chargeTimes times c = cost.chargeAll (List.replicate times c) := by
  induction times generalizing cost with
  | zero => simp [chargeTimes, chargeAll]
  | succ n ih =>
    have step : cost.chargeTimes (n + 1) c = (cost.charge c).chargeTimes n c := by
      simp only [chargeTimes, charge, mk.injEq]
      rw [Nat.add_mul, Nat.one_mul, Nat.add_comm (n * c.points), Nat.add_assoc]
    rw [step, ih (cost.charge c)]
    rfl

/-- Adds an object and its wanted properties, one after the other.  The first of them have a value:
    as many as are populated, but not more than are wanted. -/
def chargeObject (cost : Cost) (properties populated : Nat) : Cost :=
  let filled := Nat.min populated properties
  (List.range properties).foldl (fun cost slot => cost.charge (.property (slot < filled)))
    (cost.charge .object)

/-- Adds a number of objects; for each the list tells how many of its properties have a value, and
    none has where the list has ended. -/
def chargeObjects (properties : Nat) : (objects : Nat) → (populated : List Nat) → Cost → Cost
  | 0, _, cost => cost
  | objects + 1, [], cost => chargeObjects properties objects [] (cost.chargeObject properties 0)
  | objects + 1, n :: populated, cost =>
    chargeObjects properties objects populated (cost.chargeObject properties n)

/-- The cost of a whole answer: its number of objects, the number of properties wanted of each, and
    for each object how many of them have a value. -/
def account (objects properties : Nat) (populated : List Nat) : Cost :=
  chargeObjects properties objects populated (zero.charge .search)

end Cost

end SearchGateway.Query
