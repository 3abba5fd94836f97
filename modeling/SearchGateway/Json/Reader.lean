/-
  SearchGateway.Json.Reader

  Reading JSON values, arrays and objects.  A reader of nested content takes the
  number of levels that may still be opened; arbitrary values and typed ones share
  that budget.
-/
import SearchGateway.Json.Lexeme
import SearchGateway.Json.Skip

namespace SearchGateway.Json

/-- How many arrays and objects may be open at once. -/
def maxDepth : Nat := 127

/-- Puts a step in front of the path of a fault. -/
def under {α : Type} (segment : Segment) (result : Except Fault α) : Except Fault α :=
  result.mapError fun fault => { fault with path := segment :: fault.path }

/-! ## Arrays -/

/-- What stands next inside an array or an object. -/
inductive Ahead where
  /-- An item or a key starts here. -/
  | item (rest : List UInt8)
  /-- The closing bracket has been taken. -/
  | closed (rest : List UInt8)
  deriving DecidableEq, Repr

/-- Looks for the next item of an array: after the first, a comma has to come before it. -/
def itemAhead (first : Bool) (bytes : List UInt8) : Except Fault Ahead :=
  match dropBlank bytes with
  | [] => ended .list
  | b :: rest =>
    if b = ']'.toUInt8 then .ok (.closed rest)
    else if first then .ok (.item (b :: rest))
    else if b = ','.toUInt8 then
      match dropBlank rest with
      | [] => ended .value
      | b :: rest =>
        if b = ']'.toUInt8 then malformed .trailingComma else .ok (.item (b :: rest))
    else malformed .expectedListCommaOrEnd

/-- Reads the items of an array whose opening bracket has been taken.  `taken` holds the items so
    far, in reverse order, and the clock at least one entry more than there are bytes left.  A fault
    between two items lies in the array itself. -/
def items {α : Type} (item : Reader α) :
    (clock : List UInt8) → (taken : List α) → (index : Nat) → Reader (List α)
  | [], _, _, _ => ended .list
  | _ :: clock, taken, index, bytes =>
    match itemAhead (index = 0) bytes with
    | .error fault => .error fault
    | .ok (.closed rest) => .ok (taken.reverse, rest)
    | .ok (.item rest) =>
      match under (.index index) (item rest) with
      | .error fault => .error fault
      | .ok (x, rest) => items item clock (x :: taken) (index + 1) rest

/-- Reads an array whose opening bracket has been taken. -/
def arrayRest {α : Type} (item : Reader α) : Reader (List α) := fun bytes =>
  items item (0 :: bytes) [] 0 bytes

/-! ## Objects -/

/-- Looks for the quote of the next key of an object and takes it. -/
def keyAhead (first : Bool) (bytes : List UInt8) : Except Fault Ahead :=
  match dropBlank bytes with
  | [] => ended .object
  | b :: rest =>
    if b = '\x7d'.toUInt8 then .ok (.closed rest)
    else if first then
      if b = '"'.toUInt8 then .ok (.item rest) else malformed .keyMustBeString
    else if b = ','.toUInt8 then
      match dropBlank rest with
      | [] => ended .value
      | b :: rest =>
        if b = '"'.toUInt8 then .ok (.item rest)
        else if b = '\x7d'.toUInt8 then malformed .trailingComma
        else malformed .keyMustBeString
    else malformed .expectedObjectCommaOrEnd

/-- What an object goes on with: the key of a member, or its end. -/
inductive NextKey where
  | key (name : String) (rest : List UInt8)
  | closed (rest : List UInt8)
  deriving DecidableEq, Repr

/-- Reads the next key of an object. -/
def nextKey (first : Bool) (bytes : List UInt8) : Except Fault NextKey :=
  match keyAhead first bytes with
  | .error fault => .error fault
  | .ok (.closed rest) => .ok (.closed rest)
  | .ok (.item rest) =>
    match stringRest rest with
    | .error fault => .error fault
    | .ok (name, rest) => .ok (.key name rest)

/-- Reads the colon and the value of a member.  Only a fault of the value lies under the key. -/
def memberValue {α : Type} (name : String) (item : Reader α) : Reader α := fun bytes =>
  match colon bytes with
  | .error fault => .error fault
  | .ok rest => under (.member name) (item rest)

/-- Reads the members of an object whose opening bracket has been taken into sorted members, of
    which the last with a key stays. -/
def members (item : Reader Value) :
    (clock : List UInt8) → (first : Bool) → (taken : List (String × Value)) →
      Reader (List (String × Value))
  | [], _, _, _ => ended .object
  | _ :: clock, first, taken, bytes =>
    match under .unread (nextKey first bytes) with
    | .error fault => .error fault
    | .ok (.closed rest) => .ok (taken, rest)
    | .ok (.key name rest) =>
      match memberValue name item rest with
      | .error fault => .error fault
      | .ok (v, rest) => members item clock false (insertMember name v taken) rest

/-- Reads an object whose opening bracket has been taken. -/
def objectRest (item : Reader Value) : Reader (List (String × Value)) := fun bytes =>
  members item (0 :: bytes) true [] bytes

/-! ## Values -/

/-- Refuses an opening bracket that would be one level too deep. -/
def tooDeep {α : Type} : Reader α := fun _ =>
  malformed .recursionLimitExceeded

/-- Reads content one level further in. -/
def nested {α : Type} (reader : Nat → Reader α) : Nat → Reader α
  | 0 => tooDeep
  | depth + 1 => reader depth

/-- Reads any value, given the readers of what follows an opening bracket. -/
def valueWith (array : Reader (List Value)) (object : Reader (List (String × Value))) :
    Reader Value := fun bytes =>
  match front bytes with
  | .error fault => .error fault
  | .ok (.null, rest) => .ok (.null, rest)
  | .ok (.bool b, rest) => .ok (.bool b, rest)
  | .ok (.number n, rest) => .ok (.number n, rest)
  | .ok (.string s, rest) => .ok (.string s, rest)
  | .ok (.sequence, rest) => (array rest).map fun (vs, rest) => (.array vs, rest)
  | .ok (.map, rest) => (object rest).map fun (ms, rest) => (.object ms, rest)

/-- Reads any value within a number of levels. -/
def value : Nat → Reader Value
  | 0 => valueWith tooDeep tooDeep
  | depth + 1 => valueWith (arrayRest (value depth)) (objectRest (value depth))

/-! ## Whole texts -/

/-- Reads a value off the front of a text and does not look at what follows. -/
def readPrefix {α : Type} (reader : Nat → Reader α) (bytes : List UInt8) : Except Fault α :=
  (reader maxDepth bytes).map Prod.fst

/-- Reads a text that holds one value and nothing after it but blanks. -/
def read {α : Type} (reader : Nat → Reader α) (bytes : List UInt8) : Except Fault α :=
  match reader maxDepth bytes with
  | .error fault => .error fault
  | .ok (x, rest) =>
    match dropBlank rest with
    | [] => .ok x
    | _ :: _ => malformed .trailingCharacters

end SearchGateway.Json
