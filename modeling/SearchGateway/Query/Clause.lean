/-
  SearchGateway.Query.Clause

  The filter clause of query text and the predicates in it.  A clause goes from
  `filter: {` to the first closing brace.  In it a key is a word that ends in two
  underscores and a suffix; a colon and a value follow.  Keys are looked for one
  suffix at a time, in the order of the suffix table.
-/
import SearchGateway.Text.Scan
import SearchGateway.Query.Predicate

namespace SearchGateway.Query

open SearchGateway.Text

/-! ## The clause -/

/-- The text between the braces of a filter clause that starts here. -/
def clauseHere? (cs : List Char) : Option (List Char) := do
  let rest ← after? "filter:".toList cs
  let (body, _) ← enclosed? '\x7b' '\x7d' (dropSpace rest)
  return body

/-- The text between the braces of the first filter clause. -/
def filterClause? (raw : String) : Option String :=
  (firstMatch clauseHere? raw.toList).map String.ofList

/-! ## Keys and values -/

/-- The field of a word that ends in two underscores and a suffix; a field has at least one
    character. -/
def fieldOf? (suffix word : List Char) : Option (List Char) :=
  let ending := '_' :: '_' :: suffix
  if ending.isSuffixOf word && ending.length < word.length then
    some (word.take (word.length - ending.length))
  else none

/-- A form of value: what stands at the front of a text, and what follows it. -/
abbrev ValueForm (α : Type) : Type := List Char → Option (α × List Char)

/-- A value in double quotes. -/
def quoted : ValueForm (List Char) :=
  enclosed? '"' '"'

/-- The body of a list in brackets. -/
def bracketed : ValueForm (List Char) :=
  enclosed? '[' ']'

/-- A keyword, its colon and a value in double quotes. -/
def labelled (keyword : String) : ValueForm (List Char) := fun cs => do
  let rest ← after? (keyword.toList ++ [':']) cs
  quoted (dropSpace rest)

/-- The two bounds of a range; the closing brace is not looked for. -/
def bounds : ValueForm (List Char × List Char) := fun cs => do
  let rest ← after? ['\x7b'] cs
  let (low, rest) ← labelled "value" (dropSpace rest)
  let rest ← after? [','] (dropSpace rest)
  let (high, rest) ← labelled "highValue" (dropSpace rest)
  return ((low, high), rest)

/-- A colon, whitespace and a value. -/
def valueAfterColon {α : Type} (form : ValueForm α) : ValueForm α := fun cs => do
  let rest ← after? [':'] cs
  form (dropSpace rest)

/-- A token of a clause: a field and the value given to it. -/
structure Token (α : Type) where
  field : List Char
  value : α
  deriving Repr

/-- The tokens of one suffix in a clause, from left to right.  A word whose key or value does not fit
    is passed over; scanning goes on behind the value of a token.  Every step takes a character, so
    a clock as long as the text never runs out. -/
def tokensWithin {α : Type} (suffix : List Char) (form : ValueForm α) :
    (clock : List Char) → List Char → List (Token α)
  | [], _ => []
  | _ :: _, [] => []
  | _ :: clock, c :: cs =>
    if isWord c then
      let rest := cs.dropWhile isWord
      match fieldOf? suffix (c :: cs.takeWhile isWord), valueAfterColon form rest with
      | some field, some (value, rest) => ⟨field, value⟩ :: tokensWithin suffix form clock rest
      | _, _ => tokensWithin suffix form clock rest
    else tokensWithin suffix form clock cs

/-- The tokens of one suffix in a clause, from left to right. -/
def tokens {α : Type} (suffix : String) (form : ValueForm α) (clause : List Char) :
    List (Token α) :=
  tokensWithin suffix.toList form clause clause

/-! ## Predicates -/

/-- An element of a list: whitespace and quotes around it are cut off, and then whitespace again. -/
def listElement (cs : List Char) : List Char :=
  trim (trimBy (· == '"') (trim cs))

/-- The elements of the body of a list. -/
def splitList (body : List Char) : List String :=
  (split ',' body).map fun part => String.ofList (listElement part)

/-- The predicates of the scalar tokens of one suffix. -/
def scalarPredicates (suffix : String) (operator : Operator) (clause : List Char) :
    List Predicate :=
  (tokens suffix quoted clause).filterMap fun token =>
    (Condition.ofScalar? (String.ofList token.value) operator).map
      fun condition => ⟨String.ofList token.field, condition⟩

/-- The predicate of the first range token. -/
def rangePredicate? (clause : List Char) : Option Predicate :=
  (tokens Operator.betweenSuffix bounds clause).head?.map fun token =>
    ⟨String.ofList token.field,
      .between (String.ofList token.value.1) (String.ofList token.value.2)⟩

/-- The predicates of the list tokens of one suffix. -/
def listPredicates (suffix : String) (membership : Membership) (clause : List Char) :
    List Predicate :=
  (tokens suffix bracketed clause).map fun token =>
    ⟨String.ofList token.field, .member membership (splitList token.value)⟩

/-- The predicates of a clause: scalar tokens in the order of the suffix table, the first range
    token, then list tokens. -/
def clausePredicates (clause : List Char) : List Predicate :=
  (Operator.suffixTable.flatMap fun entry => scalarPredicates entry.1 entry.2 clause)
    ++ (rangePredicate? clause).toList
    ++ (Operator.listSuffixes.flatMap fun entry => listPredicates entry.1 entry.2 clause)

/-- The predicates of query text; none when it has no filter clause. -/
def extract (raw : String) : List Predicate :=
  match firstMatch clauseHere? raw.toList with
  | none => []
  | some clause => clausePredicates clause

end SearchGateway.Query
