/-
  SearchGateway.Proofs.CanonicalQuery

  Query text as it is written by the book: a collection, a filter clause, a page and
  a selection, with one blank or a comma and a blank between the parts.  The parts
  carry the conditions under which no scan takes one for another.
-/
import SearchGateway.Query.Search

namespace SearchGateway.Query

open SearchGateway.Text

/-! ## Parts -/

/-- A word of at least one character. -/
structure Word where
  chars : List Char
  ne : chars ≠ []
  all_isWord : chars.all isWord = true

/-- A property that is selected by its name; the id is not selected. -/
structure PropertyName extends Word where
  ne_id : chars ≠ "id".toList

/-- A character that can stand between quotes: no quote, brace or colon. -/
def isPlain (c : Char) : Bool :=
  c != '"' && c != '\x7b' && c != '\x7d' && c != ':'

/-- A text that can stand between quotes. -/
structure PlainText where
  chars : List Char
  all_isPlain : chars.all isPlain = true

/-- An element of a list: a plain text without a comma or closing bracket, and without whitespace at
    either end. -/
structure Element extends PlainText where
  no_comma : ',' ∉ chars
  no_bracket : ']' ∉ chars
  no_space_before : chars.head?.any isSpace = false
  no_space_after : chars.getLast?.any isSpace = false

theorem Word.isWord_of_mem (word : Word) {c : Char} (h : c ∈ word.chars) : isWord c = true :=
  List.all_eq_true.mp word.all_isWord c h

theorem PlainText.ne_of_mem (text : PlainText) {c : Char} (h : c ∈ text.chars) :
    c ≠ '"' ∧ c ≠ '\x7b' ∧ c ≠ '\x7d' ∧ c ≠ ':' := by
  simpa [isPlain, and_assoc] using List.all_eq_true.mp text.all_isPlain c h

/-- An operator that takes a single value in query text. -/
inductive Scalar where
  | compare (comparison : Comparison)
  | member (membership : Membership)
  | presence (presence : Presence)
  deriving DecidableEq

/-- The suffix of a membership operator. -/
def Membership.suffix : Membership → String
  | .inList => "in"
  | .notInList => "not_in"

namespace Scalar

/-- The suffix of an operator with a single value. -/
def suffix : Scalar → String
  | compare .equal => "eq"
  | compare .notEqual => "neq"
  | compare .less => "lt"
  | compare .lessOrEqual => "lte"
  | compare .greater => "gt"
  | compare .greaterOrEqual => "gte"
  | compare .containsToken => "contains"
  | compare .notContainsToken => "not_contains"
  | member m => m.suffix
  | presence .present => "null"
  | presence .absent => "not_null"

/-- The operators with a single value, in the order of the suffix table. -/
def all : List Scalar := [
  compare .equal, compare .notEqual, compare .less, compare .lessOrEqual, compare .greater,
  compare .greaterOrEqual, compare .containsToken, compare .notContainsToken, member .inList,
  member .notInList, presence .present, presence .absent]

/-- The operator of a request. -/
def operator : Scalar → Operator
  | compare c => .compare c
  | member m => .member m
  | presence p => .presence p

/-- The condition of an operator and its value; a list operator gets a list of one. -/
def condition (value : String) : Scalar → Condition
  | compare c => .compare c value
  | member m => .member m [value]
  | presence p => .presence p (some value)

theorem suffixTable_eq :
    Operator.suffixTable = all.map fun scalar => (scalar.suffix, scalar.operator) := rfl

theorem ofScalar?_operator (value : String) (scalar : Scalar) :
    Condition.ofScalar? value scalar.operator = some (scalar.condition value) := by
  cases scalar <;> rfl

end Scalar

/-! ## Tokens -/

/-- A token of a canonical filter clause. -/
inductive QueryToken where
  | scalar (field : Word) (operator : Scalar) (value : PlainText)
  | list (field : Word) (membership : Membership) (first : Element) (others : List Element)
  | range (field : Word) (low high : PlainText)

/-- What the tokens of a clause are looked for by. -/
inductive TokenKind where
  | scalar (operator : Scalar)
  | range
  | list (membership : Membership)
  deriving DecidableEq

/-- The kinds of tokens in the order in which a clause is scanned for them. -/
def TokenKind.all : List TokenKind :=
  Scalar.all.map scalar ++ [range, list .inList, list .notInList]

/-- A plain text in quotes. -/
def PlainText.quote (text : PlainText) : List Char :=
  '"' :: text.chars ++ ['"']

/-- The key of a field and a suffix. -/
def Word.key (field : Word) (suffix : String) : List Char :=
  field.chars ++ '_' :: '_' :: suffix.toList

/-- The elements of a list between its brackets. -/
def listBody (first : Element) (others : List Element) : List Char :=
  ", ".toList.intercalate ((first :: others).map (·.quote))

/-- The bounds of a range behind its colon, up to the closing brace. -/
def rangeBody (low high : PlainText) : List Char :=
  ' ' :: '\x7b' :: ' ' :: ("value: ".toList ++ low.quote ++ ", highValue: ".toList ++ high.quote)

namespace QueryToken

/-- The kind of a token. -/
def kind : QueryToken → TokenKind
  | scalar _ operator _ => .scalar operator
  | list _ membership _ _ => .list membership
  | range _ _ _ => .range

/-- The predicate that a token asks for. -/
def predicate : QueryToken → Predicate
  | scalar field operator value =>
    ⟨String.ofList field.chars, operator.condition (String.ofList value.chars)⟩
  | list field membership first others =>
    ⟨String.ofList field.chars,
      .member membership ((first :: others).map fun element => String.ofList element.chars)⟩
  | range field low high =>
    ⟨String.ofList field.chars, .between (String.ofList low.chars) (String.ofList high.chars)⟩

/-- The text of a token up to the closing brace that a range has. -/
def openText : QueryToken → List Char
  | scalar field operator value => field.key operator.suffix ++ ':' :: ' ' :: value.quote
  | list field membership first others =>
    field.key membership.suffix ++ ':' :: ' ' :: '[' :: (listBody first others ++ [']'])
  | range field low high => field.key Operator.betweenSuffix ++ ':' :: rangeBody low high

/-- What closes a token. -/
def closing : QueryToken → List Char
  | range _ _ _ => " \x7d".toList
  | scalar _ _ _ | list _ _ _ _ => []

/-- The text of a token. -/
def text (token : QueryToken) : List Char :=
  token.openText ++ token.closing

end QueryToken

/-! ## Queries -/

/-- A canonical query.  A range closes the filter clause with its own brace, so only the last token
    may be one. -/
structure CanonicalQuery where
  collection : Collection
  tokens : List QueryToken
  range_last : ∀ token ∈ tokens.dropLast, token.kind ≠ .range
  limit : Option Int64
  offset : Option Int64
  /-- The selected properties; without a selection the items are named alone. -/
  selection : Option (List PropertyName)

namespace CanonicalQuery

/-- The argument of the filter clause; a clause without tokens is left out. -/
def filterArgument? (query : CanonicalQuery) : Option (List Char) :=
  if query.tokens.isEmpty then none
  else some ("filter: \x7b ".toList ++
    ", ".toList.intercalate (query.tokens.map (·.text)) ++ " \x7d".toList)

/-- The argument of a directive. -/
def directive (keyword : String) (value : Int64) : List Char :=
  keyword.toList ++ ": ".toList ++ Json.intText value.toInt

/-- The arguments of the collection, in order. -/
def arguments (query : CanonicalQuery) : List (List Char) :=
  query.filterArgument?.toList ++ (query.limit.map (directive "limit")).toList ++
    (query.offset.map (directive "offset")).toList

/-- The arguments in parentheses; no arguments have none. -/
def argumentsText (query : CanonicalQuery) : List Char :=
  if query.arguments.isEmpty then []
  else '(' :: ", ".toList.intercalate query.arguments ++ [')']

/-- The braces of the selection with the names in them. -/
def selectionText (query : CanonicalQuery) : List Char :=
  match query.selection with
  | none => []
  | some names => " \x7b ".toList ++ [' '].intercalate (names.map (·.chars)) ++ " \x7d".toList

/-- A query behind its arguments. -/
def ending (query : CanonicalQuery) : List Char :=
  ' ' :: '\x7b' :: ' ' :: ("items".toList ++ query.selectionText ++ " total \x7d \x7d".toList)

/-- The characters of a query. -/
def chars (query : CanonicalQuery) : List Char :=
  '\x7b' :: ' ' :: (query.collection.id.toList ++ query.argumentsText ++ query.ending)

/-- The text of a query. -/
def text (query : CanonicalQuery) : String :=
  String.ofList query.chars

/-! ## What a query asks for -/

/-- The predicates of a query: by the kind of their tokens, and within a kind in the order of the
    text. -/
def predicates (query : CanonicalQuery) : List Predicate :=
  TokenKind.all.flatMap fun kind =>
    (query.tokens.filter fun token => token.kind = kind).map (·.predicate)

/-- The selected properties, or those of the collection where none are selected. -/
def properties (query : CanonicalQuery) : List String :=
  match query.selection with
  | none | some [] => query.collection.defaultProperties
  | some names => names.map fun name => String.ofList name.chars

/-- The request that a query asks for. -/
def request (query : CanonicalQuery) : SearchRequest where
  query := none
  filterGroups := if query.tokens.isEmpty then [] else [⟨query.predicates⟩]
  properties := query.properties
  limit := match query.limit with
    | none => 10
    | some limit => min limit.toInt 200
  after := query.offset.map fun offset => String.ofList (Json.intText offset.toInt)

end CanonicalQuery

end SearchGateway.Query
