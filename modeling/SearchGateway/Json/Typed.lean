/-
  SearchGateway.Json.Typed

  Reading JSON into given types: numbers in a range, texts, lists, optional values
  and records.  A record is read from an object by its field names, or from an
  array that holds the fields in order.
-/
import SearchGateway.Json.Reader

namespace SearchGateway.Json

/-! ## Simple types -/

/-- Reads an integer in a range; `expected` names the range in faults. -/
def integer (low high : Int) (expected : String) : Reader Int := fun bytes =>
  match front bytes with
  | .error fault => .error fault
  | .ok (.number (.int n), rest) =>
    if low ≤ n ∧ n ≤ high then .ok (n, rest) else mismatched (.outOfRange n expected)
  | .ok (found, _) => mismatched (.wrongType found expected)

/-- Reads a signed 64-bit integer. -/
def int64 : Reader Int :=
  integer (-0x8000000000000000) 0x7FFFFFFFFFFFFFFF "i64"

/-- Reads a natural number of `width` bits. -/
def natural (width : Nat) (expected : String) : Reader Nat := fun bytes =>
  (integer 0 (Nat.pow 2 width - 1 : Nat) expected bytes).map fun (n, rest) => (n.toNat, rest)

/-- Reads a text. -/
def string : Reader String := fun bytes =>
  match front bytes with
  | .error fault => .error fault
  | .ok (.string s, rest) => .ok (s, rest)
  | .ok (found, _) => mismatched (.wrongType found "a string")

/-- Reads a value or `null`. -/
def optional {α : Type} (reader : Reader α) : Reader (Option α) := fun bytes =>
  match dropBlank bytes with
  | [] => ended .value
  | b :: rest =>
    if b = 'n'.toUInt8 then (literal ("ull".toList.map Char.toUInt8) rest).map (none, ·)
    else (reader (b :: rest)).map fun (x, rest) => (some x, rest)

/-- Reads an array whose items have one type. -/
def list {α : Type} (item : Nat → Reader α) (depth : Nat) : Reader (List α) := fun bytes =>
  match front bytes with
  | .error fault => .error fault
  | .ok (.sequence, rest) => nested (fun depth => arrayRest (item depth)) depth rest
  | .ok (found, _) => mismatched (.wrongType found "a sequence")

/-- Reads an object with any keys. -/
def map (depth : Nat) : Reader (List (String × Value)) := fun bytes =>
  match front bytes with
  | .error fault => .error fault
  | .ok (.map, rest) => nested (fun depth => objectRest (value depth)) depth rest
  | .ok (found, _) => mismatched (.wrongType found "a map")

/-! ## Named constants -/

/-- The constant with a name, or the fault of a name that is not known. -/
def constant {α : Type} (known : List (String × α)) (name : String) : Except Fault α :=
  match known.lookup name with
  | some x => .ok x
  | none => mismatched (.unknownVariant name (known.map Prod.fst))

/-- Reads the one key of an object whose opening bracket has been taken; the object must not be
    empty. -/
def variantKey : Reader String := fun bytes =>
  match dropBlank bytes with
  | [] => ended .object
  | b :: rest =>
    if b = '"'.toUInt8 then stringRest rest
    else if b = '\x7d'.toUInt8 then malformed .expectedValue
    else malformed .keyMustBeString

/-- Reads one of some constants: its name, or an object whose one key is the name and whose value
    there is `null`. -/
def oneOf {α : Type} (known : List (String × α)) (depth : Nat) : Reader α := fun bytes =>
  match dropBlank bytes with
  | [] => ended .value
  | b :: rest =>
    if b = '"'.toUInt8 then
      match stringRest rest with
      | .error fault => .error fault
      | .ok (name, rest) => (constant known name).map (·, rest)
    else if b = '\x7b'.toUInt8 then
      nested (fun _ rest =>
        match variantKey rest with
        | .error fault => .error fault
        | .ok (name, rest) =>
          match constant known name with
          | .error fault => .error fault
          | .ok x =>
            match memberValue name front rest with
            | .error fault => .error fault
            | .ok (.null, rest) =>
              match dropBlank rest with
              | [] => ended .object
              | b :: rest =>
                if b = '\x7d'.toUInt8 then .ok (x, rest) else malformed .expectedValue
            | .ok (found, _) => mismatched (.wrongType found "unit")) depth rest
    else malformed .expectedValue

/-! ## Records -/

/-- A field of a record: how its value is read and where it goes. -/
structure Field (σ : Type) where
  name : String
  required : Bool
  read : Nat → Reader (σ → σ)

/-- A field that may be left out. -/
def Field.optional {σ α : Type} (name : String) (read : Nat → Reader α) (set : α → σ → σ) :
    Field σ :=
  ⟨name, false, fun depth bytes => (read depth bytes).map fun (x, rest) => (set x, rest)⟩

/-- A field that has to be there. -/
def Field.mandatory {σ α : Type} (name : String) (read : Nat → Reader α) (set : α → σ → σ) :
    Field σ :=
  ⟨name, true, fun depth bytes => (read depth bytes).map fun (x, rest) => (set x, rest)⟩

/-- A record type: its name in faults, its fields in order, and the record in which no field has
    been set. -/
structure Shape (σ : Type) where
  name : String
  fields : List (Field σ)
  initial : σ

namespace Shape

variable {σ : Type}

/-- The name of the record type in faults. -/
def title (shape : Shape σ) : String :=
  "struct " ++ shape.name

/-- The record type with its number of fields. -/
def sizedTitle (shape : Shape σ) : String :=
  shape.title ++ " with " ++ String.ofList (Nat.toDigits 10 shape.fields.length) ++
    (if shape.fields.length = 1 then " element" else " elements")

/-- The field with a name. -/
def field? (shape : Shape σ) (name : String) : Option (Field σ) :=
  shape.fields.find? fun field => field.name == name

/-- The first required field that is not among the given names. -/
def missing? (shape : Shape σ) (seen : List String) : Option (Field σ) :=
  shape.fields.find? fun field => field.required && !seen.contains field.name

/-- Reads the members of an object whose opening bracket has been taken.  Members with unknown names
    are passed over, and a known name may come once. -/
def members (shape : Shape σ) (depth : Nat) :
    (clock : List UInt8) → (first : Bool) → (seen : List String) → σ → Reader σ
  | [], _, _, _, _ => ended .object
  | _ :: clock, first, seen, x, bytes =>
    match under .unread (nextKey first bytes) with
    | .error fault => .error fault
    | .ok (.closed rest) =>
      match shape.missing? seen with
      | some field => mismatched (.missingField field.name)
      | none => .ok (x, rest)
    | .ok (.key name rest) =>
      match shape.field? name with
      | none =>
        match (colon rest).bind skip with
        | .error fault => .error fault
        | .ok rest => members shape depth clock false seen x rest
      | some field =>
        if seen.contains name then mismatched (.duplicateField name)
        else
          match memberValue name (field.read depth) rest with
          | .error fault => .error fault
          | .ok (set, rest) => members shape depth clock false (name :: seen) (set x) rest

/-- Takes the closing bracket after the last field of a record written as an array. -/
def closeItems (bytes : List UInt8) : Except Fault (List UInt8) :=
  match dropBlank bytes with
  | [] => ended .list
  | b :: rest =>
    if b = ']'.toUInt8 then .ok rest
    else if b = ','.toUInt8 ∧ (dropBlank rest).head? = some ']'.toUInt8 then
      malformed .trailingComma
    else malformed .trailingCharacters

/-- Reads the fields of a record from the items of an array whose opening bracket has been taken. -/
def items (shape : Shape σ) (depth : Nat) :
    (fields : List (Field σ)) → (index : Nat) → σ → Reader σ
  | [], _, x, bytes => (closeItems bytes).map (x, ·)
  | field :: fields, index, x, bytes =>
    match itemAhead (index = 0) bytes with
    | .error fault => .error fault
    | .ok (.closed rest) =>
      match (field :: fields).findIdx? Field.required with
      | some distance => mismatched (.tooShort (index + distance) shape.sizedTitle)
      | none => .ok (x, rest)
    | .ok (.item rest) =>
      match under (.index index) (field.read depth rest) with
      | .error fault => .error fault
      | .ok (set, rest) => items shape depth fields (index + 1) (set x) rest

/-- Reads a record from an object or an array. -/
def read (shape : Shape σ) (depth : Nat) : Reader σ := fun bytes =>
  match front bytes with
  | .error fault => .error fault
  | .ok (.map, rest) =>
    nested (fun depth rest => shape.members depth (0 :: rest) true [] shape.initial rest) depth rest
  | .ok (.sequence, rest) =>
    nested (fun depth rest => shape.items depth shape.fields 0 shape.initial rest) depth rest
  | .ok (found, _) => mismatched (.wrongType found shape.title)

end Shape

/-- Reads content and converts it; a refusal is a fault of the content. -/
def converted {α β : Type} (reader : Nat → Reader α) (convert : α → Except String β)
    (depth : Nat) : Reader β := fun bytes =>
  match reader depth bytes with
  | .error fault => .error fault
  | .ok (x, rest) =>
    match convert x with
    | .error reason => mismatched (.refused reason)
    | .ok y => .ok (y, rest)

end SearchGateway.Json
