/-
  SearchGateway.Query.Predicate

  Predicates of a search.  A condition carries exactly the values that its operator
  takes.  The raw form is the object of a request, in which any part may be missing
  or have any JSON type; converting it either gives a predicate or says what is
  wrong with it.
-/
import SearchGateway.Json.Typed
import SearchGateway.Query.Operator

namespace SearchGateway.Query

open SearchGateway.Json (Value)

/-- An operator with the values that it takes. -/
inductive Condition where
  | compare (comparison : Comparison) (value : String)
  | member (membership : Membership) (values : List String)
  | presence (presence : Presence) (value : Option String)
  | between (low high : String)
  deriving DecidableEq, Repr

namespace Condition

/-- The operator of a condition. -/
def operator : Condition → Operator
  | compare c _ => .compare c
  | member m _ => .member m
  | presence p _ => .presence p
  | between _ _ => .between

/-- The condition of an operator with a single value; a list operator gets a list of one.  The range
    operator has none, since it needs two values. -/
def ofScalar? (value : String) : Operator → Option Condition
  | .compare c => some (compare c value)
  | .member m => some (member m [value])
  | .presence p => some (presence p (some value))
  | .between => none

/-- The condition of a list operator with its values. -/
def ofList? (values : List String) : Operator → Option Condition
  | .member m => some (member m values)
  | _ => none

end Condition

/-- A condition on a property. -/
structure Predicate where
  property : String
  condition : Condition
  deriving DecidableEq, Repr

/-! ## The raw form -/

/-- A predicate as a request carries it: any value may be missing and have any type. -/
structure RawPredicate where
  property : String
  operator : Operator
  value : Option Value
  values : Option (List Value)
  highValue : Option Value
  deriving Repr

/-- A value of a raw predicate. -/
inductive RawPart where
  | value
  | values
  | highValue
  deriving DecidableEq, Repr

/-- The key of a value in a request. -/
def RawPart.key : RawPart → String
  | .value => "value"
  | .values => "values"
  | .highValue => "highValue"

/-- Why a raw predicate is none. -/
inductive PredicateError where
  /-- The operator takes a value that is missing. -/
  | missing (operator : Operator) (property : String) (part : RawPart)
  /-- A value is neither a text nor a number nor a truth value. -/
  | notScalar (found : Value)
  /-- The operator makes no condition of the values that it takes. -/
  | invalidOperator (property : String)
  deriving Repr

/-- The wording of a predicate error. -/
def PredicateError.message : PredicateError → String
  | .missing operator property part =>
    operator.code ++ " on '" ++ property ++ "' requires '" ++ part.key ++ "'"
  | .notScalar found => "expected a scalar filter value, got " ++ found.print
  | .invalidOperator property => "invalid operator for '" ++ property ++ "'"

/-- The text of a scalar value. -/
def scalarText : Value → Except PredicateError String
  | .string s => .ok s
  | .number n => .ok (String.ofList n.text)
  | .bool true => .ok "true"
  | .bool false => .ok "false"
  | found => .error (.notScalar found)

namespace RawPredicate

/-- A value that the operator takes. -/
def require {α : Type} (raw : RawPredicate) (part : RawPart) (found : Option α) :
    Except PredicateError α :=
  match found with
  | some x => .ok x
  | none => .error (.missing raw.operator raw.property part)

/-- What the operator makes of the values that it takes, if it makes a condition of them.  What it
    does not take is ignored. -/
def made? (raw : RawPredicate) : Except PredicateError (Option Condition) :=
  match raw.operator with
  | .member m => do
    let values ← raw.require .values raw.values
    let texts ← values.mapM scalarText
    return Condition.ofList? texts (.member m)
  | .between => do
    let low ← raw.require .value raw.value
    let high ← raw.require .highValue raw.highValue
    let lowText ← scalarText low
    let highText ← scalarText high
    return some (.between lowText highText)
  | .presence p =>
    match raw.value with
    | none => .ok (some (.presence p none))
    | some v => (scalarText v).map fun text => some (.presence p (some text))
  | .compare c => do
    let v ← raw.require .value raw.value
    let text ← scalarText v
    return Condition.ofScalar? text (.compare c)

/-- The condition of a raw predicate. -/
def condition? (raw : RawPredicate) : Except PredicateError Condition := do
  match ← raw.made? with
  | some condition => return condition
  | none => .error (.invalidOperator raw.property)

/-- The predicate of a raw predicate. -/
def toPredicate? (raw : RawPredicate) : Except PredicateError Predicate :=
  raw.condition?.map fun condition => ⟨raw.property, condition⟩

/-- The JSON object of a raw predicate; missing values are left out. -/
def toJson (raw : RawPredicate) : Value :=
  .object <|
    [("propertyName", .string raw.property), ("operator", .string raw.operator.code)]
      ++ (raw.value.map fun v => (RawPart.value.key, v)).toList
      ++ (raw.values.map fun vs => (RawPart.values.key, .array vs)).toList
      ++ (raw.highValue.map fun v => (RawPart.highValue.key, v)).toList

/-- The record of a raw predicate. -/
def shape : Json.Shape RawPredicate where
  name := "WirePredicate"
  fields := [
    .mandatory "propertyName" (fun _ => Json.string) fun s raw => { raw with property := s },
    .mandatory "operator" (Json.oneOf Operator.byCode) fun o raw => { raw with operator := o },
    .optional "value" (fun depth => Json.optional (Json.value depth))
      fun v raw => { raw with value := v },
    .optional "values" (fun depth => Json.optional (Json.list Json.value depth))
      fun vs raw => { raw with values := vs },
    .optional "highValue" (fun depth => Json.optional (Json.value depth))
      fun v raw => { raw with highValue := v }]
  initial := ⟨"", .between, none, none, none⟩

end RawPredicate

namespace Predicate

/-- The operator of a predicate. -/
def operator (predicate : Predicate) : Operator :=
  predicate.condition.operator

/-- The raw form of a predicate: exactly the values that its operator takes, all of them texts. -/
def toRaw (predicate : Predicate) : RawPredicate :=
  let raw : RawPredicate := ⟨predicate.property, predicate.operator, none, none, none⟩
  match predicate.condition with
  | .compare _ value => { raw with value := some (.string value) }
  | .member _ values => { raw with values := some (values.map .string) }
  | .presence _ value => { raw with value := value.map .string }
  | .between low high =>
    { raw with value := some (.string low), highValue := some (.string high) }

/-- The JSON object of a predicate. -/
def toJson (predicate : Predicate) : Value :=
  predicate.toRaw.toJson

/-- Reads a predicate: its object first, then what the object holds. -/
def read : Nat → Json.Reader Predicate :=
  Json.converted RawPredicate.shape.read fun raw =>
    raw.toPredicate?.mapError PredicateError.message

end Predicate

end SearchGateway.Query
