/-
  SearchGateway.Http.Header

  Header fields of web messages.
-/
import SearchGateway.Text.Utf8

namespace SearchGateway.Http

/-- A byte that may stand in the value of a header. -/
def isHeaderByte (b : UInt8) : Bool :=
  (0x20 ≤ b.toNat && b.toNat != 0x7F) || b.toNat == 0x09

/-- Whether a text may be the value of a header. -/
def isHeaderValue (text : String) : Bool :=
  (Text.Utf8.ofString text).all isHeaderByte

/-- Header fields by their names in lower case. -/
abbrev Headers : Type := List (String × String)

/-- The value of the first header with a name in lower case. -/
def Headers.get? (headers : Headers) (name : String) : Option String :=
  headers.lookup name

end SearchGateway.Http
