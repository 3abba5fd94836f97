/-
  SearchGateway.Json.Fault

  Why a JSON text could not be read: the text ended early, it is malformed, or it
  is well-formed and has the wrong shape.  A fault also says in which part of the
  document it lies, but not in which line and column.
-/
import SearchGateway.Json.Value
import SearchGateway.Text.Quoted

namespace SearchGateway.Json

/-- What a text ended inside of. -/
inductive Unfinished where
  | value
  | list
  | object
  | string
  deriving DecidableEq, Repr

/-- How a text breaks the grammar of JSON, or a limit set on it. -/
inductive Malformation where
  | expectedValue
  | expectedIdent
  | expectedColon
  | expectedListCommaOrEnd
  | expectedObjectCommaOrEnd
  | keyMustBeString
  | trailingComma
  | trailingCharacters
  | invalidNumber
  | numberOutOfRange
  | invalidEscape
  | invalidCodePoint
  | controlCharacter
  | loneSurrogate
  | unexpectedEndOfHexEscape
  | recursionLimitExceeded
  deriving DecidableEq, Repr

/-- What stands in the text where something else was wanted. -/
inductive Found where
  | null
  | bool (b : Bool)
  | number (n : Number)
  | string (s : String)
  | sequence
  | map
  deriving DecidableEq, Repr

/-- How well-formed content differs from the wanted shape. -/
inductive Mismatch where
  /-- A value of another type. -/
  | wrongType (found : Found) (expected : String)
  /-- An integer outside the wanted range. -/
  | outOfRange (found : Int) (expected : String)
  /-- An array with too few elements for a record. -/
  | tooShort (length : Nat) (expected : String)
  | missingField (name : String)
  | duplicateField (name : String)
  /-- A name that is not one of the known ones. -/
  | unknownVariant (name : String) (known : List String)
  /-- The right shape with contents that its type refuses. -/
  | refused (reason : String)
  deriving DecidableEq, Repr

/-- The reason of a fault. -/
inductive Cause where
  | ended (inside : Unfinished)
  | malformed (how : Malformation)
  | mismatch (how : Mismatch)
  deriving DecidableEq, Repr

/-- One step from a document to a part of it. -/
inductive Segment where
  | index (i : Nat)
  | member (key : String)
  /-- A member whose key could not be read. -/
  | unread
  deriving DecidableEq, Repr

/-- A fault: its cause and the path to it. -/
structure Fault where
  cause : Cause
  path : List Segment
  deriving DecidableEq, Repr

/-! ## Wording -/

namespace Unfinished

/-- The part of the document, with its article. -/
def name : Unfinished → String
  | .value => "a value"
  | .list => "a list"
  | .object => "an object"
  | .string => "a string"

end Unfinished

namespace Malformation

/-- The wording of a malformation. -/
def message : Malformation → String
  | .expectedValue => "expected value"
  | .expectedIdent => "expected ident"
  | .expectedColon => "expected `:`"
  | .expectedListCommaOrEnd => "expected `,` or `]`"
  | .expectedObjectCommaOrEnd => "expected `,` or `\x7d`"
  | .keyMustBeString => "key must be a string"
  | .trailingComma => "trailing comma"
  | .trailingCharacters => "trailing characters"
  | .invalidNumber => "invalid number"
  | .numberOutOfRange => "number out of range"
  | .invalidEscape => "invalid escape"
  | .invalidCodePoint => "invalid unicode code point"
  | .controlCharacter => "control character (\\u0000-\\u001F) found while parsing a string"
  | .loneSurrogate => "lone leading surrogate in hex escape"
  | .unexpectedEndOfHexEscape => "unexpected end of hex escape"
  | .recursionLimitExceeded => "recursion limit exceeded"

end Malformation

/-- A name between backticks. -/
def backticked (name : String) : String :=
  "`" ++ name ++ "`"

namespace Found

/-- The type of the found value, and the value itself where it is short. -/
def describe : Found → String
  | .null => "null"
  | .bool b => "boolean " ++ backticked (if b then "true" else "false")
  | .number (.int n) => "integer " ++ backticked (String.ofList (intText n))
  | .number (.double x) => "floating point " ++ backticked (String.ofList x.text)
  | .string s => "string " ++ String.ofList (Text.Quoted.encode s.toList)
  | .sequence => "sequence"
  | .map => "map"

end Found

namespace Mismatch

/-- The wording of a mismatch. -/
def message : Mismatch → String
  | .wrongType found expected => "invalid type: " ++ found.describe ++ ", expected " ++ expected
  | .outOfRange n expected =>
    "invalid value: " ++ (Found.number (.int n)).describe ++ ", expected " ++ expected
  | .tooShort length expected =>
    "invalid length " ++ String.ofList (Nat.toDigits 10 length) ++ ", expected " ++ expected
  | .missingField name => "missing field " ++ backticked name
  | .duplicateField name => "duplicate field " ++ backticked name
  | .unknownVariant name known =>
    "unknown variant " ++ backticked name ++ ", expected one of " ++
      ", ".intercalate (known.map backticked)
  | .refused reason => reason

end Mismatch

namespace Cause

/-- The wording of a cause. -/
def message : Cause → String
  | .ended inside => "EOF while parsing " ++ inside.name
  | .malformed how => how.message
  | .mismatch how => how.message

end Cause

namespace Segment

/-- One step of a path: indices in brackets, keys as they are, `?` for a key that was not read. -/
def text : Segment → String
  | .index i => "[" ++ String.ofList (Nat.toDigits 10 i) ++ "]"
  | .member key => key
  | .unread => "?"

/-- Whether the step names a part of the document. -/
def isKnown : Segment → Bool
  | .unread => false
  | _ => true

/-- Whether the step is written after a dot. -/
def isDotted : Segment → Bool
  | .index _ => false
  | _ => true

/-- A path: keys are set off by dots, indices follow directly. -/
def pathText : List Segment → String
  | [] => ""
  | s :: rest =>
    s.text ++ String.join (rest.map fun t => (if t.isDotted then "." else "") ++ t.text)

end Segment

namespace Fault

/-- The wording of a fault.  Line and column of the document are not part of it, nor of any text
    that is made of it. -/
def message (f : Fault) : String :=
  f.cause.message

/-- The wording of a fault after the path to it, where a step of the path is known.  Line and column
    are left out. -/
def located (f : Fault) : String :=
  if f.path.any Segment.isKnown then Segment.pathText f.path ++ ": " ++ f.message else f.message

end Fault

end SearchGateway.Json
