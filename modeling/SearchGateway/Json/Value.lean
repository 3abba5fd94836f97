/-
  SearchGateway.Json.Value

  JSON values and their compact text.  An object is a list of members in writing
  order; `insert` keeps the members sorted by key and lets the last value of a key
  win, which is the form in which arbitrary content is kept.
-/
import SearchGateway.Json.Double

namespace SearchGateway.Json

/-- A JSON number: an exact integer, or a binary64 number. -/
inductive Number where
  | int (n : Int)
  | double (x : Double)
  deriving DecidableEq, Repr

/-- A JSON value. -/
inductive Value where
  | null
  | bool (b : Bool)
  | number (n : Number)
  | string (s : String)
  | array (items : List Value)
  | object (members : List (String × Value))
  deriving Repr, Inhabited

namespace Value

/-- The value of an integer. -/
def ofInt (n : Int) : Value :=
  .number (.int n)

/-- The value of a natural number. -/
def ofNat (n : Nat) : Value :=
  .number (.int n)

/-- The array of some strings. -/
def strings (texts : List String) : Value :=
  .array (texts.map .string)

/-- The members of an object; none for other values. -/
def members : Value → List (String × Value)
  | .object ms => ms
  | _ => []

/-- The value of the first member with a key. -/
def get? (key : String) (v : Value) : Option Value :=
  v.members.lookup key

end Value

/-! ## Sorted members -/

/-- Puts a member into sorted members; an equal key gets the new value. -/
def insertMember (key : String) (v : Value) : List (String × Value) → List (String × Value)
  | [] => [(key, v)]
  | (k, w) :: rest =>
    if key < k then (key, v) :: (k, w) :: rest
    else if key = k then (key, v) :: rest
    else (k, w) :: insertMember key v rest

/-- Sorts members by key; of equal keys the last stays. -/
def sortMembers (ms : List (String × Value)) : List (String × Value) :=
  ms.foldl (fun sorted m => insertMember m.1 m.2 sorted) []

mutual

/-- Sorts the members of every object inside a value. -/
def Value.sorted : Value → Value
  | .array items => .array (sortedItems items)
  | .object ms => .object (sortMembers (sortedMembers ms))
  | v => v

/-- Sorts inside every item. -/
def sortedItems : List Value → List Value
  | [] => []
  | v :: vs => v.sorted :: sortedItems vs

/-- Sorts inside the value of every member. -/
def sortedMembers : List (String × Value) → List (String × Value)
  | [] => []
  | (k, v) :: ms => (k, v.sorted) :: sortedMembers ms

end

/-! ## Text -/

/-- The decimal text of an integer: a minus sign only below zero, no leading zeros. -/
def intText (n : Int) : List Char :=
  if n < 0 then '-' :: Nat.toDigits 10 n.natAbs else Nat.toDigits 10 n.natAbs

/-- The text of a number. -/
def Number.text : Number → List Char
  | .int n => intText n
  | .double x => x.text

/-- A lower-case hexadecimal digit. -/
def hexDigit (n : Nat) : Char :=
  if n < 10 then Char.ofNat (48 + n) else Char.ofNat (87 + n)

/-- One character of a string: quotes, backslashes and control characters are escaped. -/
def escapeChar (c : Char) : List Char :=
  if c = '"' then ['\\', '"']
  else if c = '\\' then ['\\', '\\']
  else if c = '\n' then ['\\', 'n']
  else if c = '\r' then ['\\', 'r']
  else if c = '\t' then ['\\', 't']
  else if c.toNat = 8 then ['\\', 'b']
  else if c.toNat = 12 then ['\\', 'f']
  else if c.toNat < 32 then ['\\', 'u', '0', '0', hexDigit (c.toNat / 16), hexDigit (c.toNat % 16)]
  else [c]

/-- The text of a string, with its quotes. -/
def stringText (s : String) : List Char :=
  '"' :: (s.toList.flatMap escapeChar ++ ['"'])

/-- Texts with a comma between neighbours. -/
def commaSeparated : List (List Char) → List Char
  | [] => []
  | t :: ts => t ++ ts.flatMap (',' :: ·)

mutual

/-- The compact text of a value. -/
def Value.text : Value → List Char
  | .null => ['n', 'u', 'l', 'l']
  | .bool true => ['t', 'r', 'u', 'e']
  | .bool false => ['f', 'a', 'l', 's', 'e']
  | .number n => n.text
  | .string s => stringText s
  | .array items => '[' :: (commaSeparated (itemTexts items) ++ [']'])
  | .object ms => '\x7b' :: (commaSeparated (memberTexts ms) ++ ['\x7d'])

/-- The texts of some items. -/
def itemTexts : List Value → List (List Char)
  | [] => []
  | v :: vs => v.text :: itemTexts vs

/-- The texts of some members. -/
def memberTexts : List (String × Value) → List (List Char)
  | [] => []
  | (k, v) :: ms => (stringText k ++ ':' :: v.text) :: memberTexts ms

end

/-- The compact text of a value, as a string. -/
def Value.print (v : Value) : String :=
  String.ofList v.text

end SearchGateway.Json
