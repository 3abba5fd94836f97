/-
  SearchGateway.Query.Operator

  The comparison operators of a search: their codes, the suffixes that name them in
  query text, and the shape of the value each one takes.
-/

namespace SearchGateway.Query

/-- An operator that compares a property with one value. -/
inductive Comparison where
  | equal
  | notEqual
  | less
  | lessOrEqual
  | greater
  | greaterOrEqual
  | containsToken
  | notContainsToken
  deriving DecidableEq, Repr

/-- An operator that looks a property up in a list of values. -/
inductive Membership where
  | inList
  | notInList
  deriving DecidableEq, Repr

/-- An operator that asks whether a property is set; it may carry a value, which is passed on. -/
inductive Presence where
  | present
  | absent
  deriving DecidableEq, Repr

/-- An operator of the search backend. -/
inductive Operator where
  | compare (comparison : Comparison)
  | member (membership : Membership)
  | presence (presence : Presence)
  | between
  deriving DecidableEq, Repr

/-- The shape of the value that an operator takes. -/
inductive ValueShape where
  | scalar
  | list
  | range
  deriving DecidableEq, Repr

namespace ValueShape

/-- The name of a shape. -/
def name : ValueShape → String
  | scalar => "scalar"
  | list => "list"
  | range => "range"

end ValueShape

/-- The code of a comparison. -/
def Comparison.code : Comparison → String
  | .equal => "EQ"
  | .notEqual => "NEQ"
  | .less => "LT"
  | .lessOrEqual => "LTE"
  | .greater => "GT"
  | .greaterOrEqual => "GTE"
  | .containsToken => "CONTAINS_TOKEN"
  | .notContainsToken => "NOT_CONTAINS_TOKEN"

/-- The code of a membership operator. -/
def Membership.code : Membership → String
  | .inList => "IN"
  | .notInList => "NOT_IN"

/-- The code of a presence operator. -/
def Presence.code : Presence → String
  | .present => "HAS_PROPERTY"
  | .absent => "NOT_HAS_PROPERTY"

namespace Operator

/-- The code of an operator in a request. -/
def code : Operator → String
  | compare c => c.code
  | member m => m.code
  | presence p => p.code
  | between => "BETWEEN"

/-- The shape of the value that an operator takes. -/
def shape : Operator → ValueShape
  | compare _ => .scalar
  | member _ => .list
  | presence _ => .scalar
  | between => .range

/-- Every operator, in the order in which they are listed to callers. -/
def all : List Operator := [
  compare .equal, compare .notEqual, compare .less, compare .lessOrEqual, compare .greater,
  compare .greaterOrEqual, compare .containsToken, compare .notContainsToken, member .inList,
  member .notInList, presence .present, presence .absent, between]

/-- The operators by their codes. -/
def byCode : List (String × Operator) :=
  all.map fun operator => (operator.code, operator)

/-- The operator with a code. -/
def ofCode? (code : String) : Option Operator :=
  byCode.lookup code

/-- The suffixes of query text and their operators, in the order in which a filter clause is scanned
    for them.  The range operator has a form of its own and is not among them. -/
def suffixTable : List (String × Operator) := [
  ("eq", compare .equal), ("neq", compare .notEqual), ("lt", compare .less),
  ("lte", compare .lessOrEqual), ("gt", compare .greater), ("gte", compare .greaterOrEqual),
  ("contains", compare .containsToken), ("not_contains", compare .notContainsToken),
  ("in", member .inList), ("not_in", member .notInList), ("null", presence .present),
  ("not_null", presence .absent)]

/-- The suffixes of query text that take a list in brackets. -/
def listSuffixes : List (String × Membership) := [("in", .inList), ("not_in", .notInList)]

/-- The suffix of the range form. -/
def betweenSuffix : String := "between"

/-- The operator that a suffix of query text names. -/
def ofSuffix? (suffix : String) : Option Operator :=
  if suffix = betweenSuffix then some between else suffixTable.lookup suffix

/-! ## Codes -/

/-- Every operator is found under its code. -/
theorem ofCode?_code (operator : Operator) : ofCode? operator.code = some operator := by
  rcases operator with (_ | _) | (_ | _) | (_ | _) | _ <;> decide

end Operator

end SearchGateway.Query
