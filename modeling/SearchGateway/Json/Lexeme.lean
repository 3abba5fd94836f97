/-
  SearchGateway.Json.Lexeme

  The front of a JSON text: blanks, literals, strings and numbers.  Everything here
  works on the bytes that are left and reports the first problem in their order.
-/
import SearchGateway.Json.Fault
import SearchGateway.Text.Percent

namespace SearchGateway.Json

/-- A reader takes a value off the front of the bytes and returns the bytes after it. -/
abbrev Reader (α : Type) : Type := List UInt8 → Except Fault (α × List UInt8)

/-- The text ends inside the given part. -/
def ended {α : Type} (inside : Unfinished) : Except Fault α :=
  .error ⟨.ended inside, []⟩

/-- The text breaks a rule of the grammar here. -/
def malformed {α : Type} (how : Malformation) : Except Fault α :=
  .error ⟨.malformed how, []⟩

/-- The content here is not the wanted one. -/
def mismatched {α : Type} (how : Mismatch) : Except Fault α :=
  .error ⟨.mismatch how, []⟩

/-- A space, line feed, carriage return or tab. -/
def isBlank (b : UInt8) : Bool :=
  b == 0x20 || b == 0x0A || b == 0x0D || b == 0x09

/-- Drops the blanks at the front. -/
def dropBlank (bytes : List UInt8) : List UInt8 :=
  bytes.dropWhile isBlank

/-- Takes the remaining bytes of a literal such as `null`. -/
def literal : List UInt8 → List UInt8 → Except Fault (List UInt8)
  | [], bytes => .ok bytes
  | _ :: _, [] => ended .value
  | e :: es, b :: rest => if b = e then literal es rest else malformed .expectedIdent

/-! ## Strings -/

/-- The code unit written by four hexadecimal digits. -/
def codeUnit? (a b c d : UInt8) : Option Nat :=
  match Text.Percent.hexValue? a, Text.Percent.hexValue? b, Text.Percent.hexValue? c,
      Text.Percent.hexValue? d with
  | some w, some x, some y, some z => some (w * 4096 + x * 256 + y * 16 + z)
  | _, _, _, _ => none

/-- A code unit that opens a surrogate pair. -/
def isHighSurrogate (n : Nat) : Bool :=
  0xD800 ≤ n && n < 0xDC00

/-- A code unit that closes a surrogate pair. -/
def isLowSurrogate (n : Nat) : Bool :=
  0xDC00 ≤ n && n < 0xE000

/-- The character of a surrogate pair. -/
def surrogatePair (high low : Nat) : Char :=
  Char.ofNat (0x10000 + (high - 0xD800) * 0x400 + (low - 0xDC00))

/-- The byte that a backslash and a letter stand for. -/
def shortEscape? (letter : UInt8) : Option UInt8 :=
  if letter = '"'.toUInt8 then some '"'.toUInt8
  else if letter = '\\'.toUInt8 then some '\\'.toUInt8
  else if letter = '/'.toUInt8 then some '/'.toUInt8
  else if letter = 'b'.toUInt8 then some 0x08
  else if letter = 'f'.toUInt8 then some 0x0C
  else if letter = 'n'.toUInt8 then some 0x0A
  else if letter = 'r'.toUInt8 then some 0x0D
  else if letter = 't'.toUInt8 then some 0x09
  else none

/-- Puts the bytes of a character, in reverse order, in front of `taken`. -/
def pushChar (taken : List UInt8) (c : Char) : List UInt8 :=
  (Text.Utf8.encodeChar c).reverse ++ taken

/-- The content of a string up to its closing quote, with escapes replaced by the bytes they stand
    for.  `taken` is the content so far, in reverse order. -/
def stringBytes (taken : List UInt8) : Reader (List UInt8)
  | [] => ended .string
  | b :: rest =>
    if b = '"'.toUInt8 then .ok (taken.reverse, rest)
    else if b = '\\'.toUInt8 then
      match rest with
      | [] => ended .string
      | letter :: rest =>
        if letter = 'u'.toUInt8 then
          match rest with
          | h₁ :: h₂ :: h₃ :: h₄ :: rest =>
            match codeUnit? h₁ h₂ h₃ h₄ with
            | none => malformed .invalidEscape
            | some n =>
              if isLowSurrogate n then malformed .loneSurrogate
              else if isHighSurrogate n then
                match rest with
                | [] => ended .string
                | [b] =>
                  if b = '\\'.toUInt8 then ended .string else malformed .unexpectedEndOfHexEscape
                | b :: letter :: rest =>
                  if b = '\\'.toUInt8 ∧ letter = 'u'.toUInt8 then
                    match rest with
                    | l₁ :: l₂ :: l₃ :: l₄ :: rest =>
                      match codeUnit? l₁ l₂ l₃ l₄ with
                      | none => malformed .invalidEscape
                      | some m =>
                        if isLowSurrogate m then
                          stringBytes (pushChar taken (surrogatePair n m)) rest
                        else malformed .loneSurrogate
                    | _ => ended .string
                  else malformed .unexpectedEndOfHexEscape
              else stringBytes (pushChar taken (Char.ofNat n)) rest
          | _ => ended .string
        else
          match shortEscape? letter with
          | none => malformed .invalidEscape
          | some byte => stringBytes (byte :: taken) rest
    else if b < 0x20 then malformed .controlCharacter
    else stringBytes (b :: taken) rest

/-- The text of a string whose opening quote has been taken. -/
def stringRest : Reader String := fun bytes =>
  match stringBytes [] bytes with
  | .error fault => .error fault
  | .ok (content, rest) =>
    match Text.Utf8.decode? content with
    | none => malformed .invalidCodePoint
    | some cs => .ok (String.ofList cs, rest)

/-! ## Numbers -/

/-- The value of a decimal digit. -/
def digit? (b : UInt8) : Option Nat :=
  if '0'.toUInt8 ≤ b ∧ b ≤ '9'.toUInt8 then some (b.toNat - 48) else none

/-- Whether a byte is a decimal digit. -/
def isDigit (b : UInt8) : Bool :=
  (digit? b).isSome

/-- What a run of digits adds to a significand of at most 64 bits. -/
structure Digits where
  significand : Nat
  /-- How many digits the significand took. -/
  taken : Nat
  /-- How many digits were left out because the significand would not fit. -/
  dropped : Nat
  deriving DecidableEq, Repr

/-- Appends a run of digits to a significand of at most 64 bits.  From the first digit that does not
    fit, all are dropped. -/
def digits (significand taken : Nat) (bytes : List UInt8) : Digits × List UInt8 :=
  match bytes with
  | [] => (⟨significand, taken, 0⟩, [])
  | b :: rest =>
    match digit? b with
    | none => (⟨significand, taken, 0⟩, b :: rest)
    | some d =>
      if significand * 10 + d < UInt64.size then digits (significand * 10 + d) (taken + 1) rest
      else (⟨significand, taken, ((b :: rest).takeWhile isDigit).length⟩, rest.dropWhile isDigit)

/-- The double of a decimal, or the fault of a decimal that is too large. -/
def doubleOf (negative : Bool) (significand : Nat) (exponent : Int) : Except Fault Double :=
  match Double.ofDecimal? negative significand exponent with
  | none => malformed .numberOutOfRange
  | some x => .ok x

/-- A zero of either sign. -/
def signedZero (negative : Bool) : Double :=
  Double.ofFloat (if negative then -0.0 else 0.0)

/-- The largest size of a written exponent. -/
def maxExponent : Nat := 0x7FFFFFFF

/-- The value of a run of digits. -/
def natOfDigits (bytes : List UInt8) : Nat :=
  bytes.foldl (fun n b => n * 10 + (b.toNat - 48)) 0

/-- Reads the exponent of a number after its `e` and makes the double. -/
def exponentPart (negative : Bool) (significand : Nat) (exponent : Int) : Reader Double :=
  fun bytes =>
    let (below, bytes) := match bytes with
      | b :: rest =>
        if b = '+'.toUInt8 then (false, rest)
        else if b = '-'.toUInt8 then (true, rest)
        else (false, bytes)
      | [] => (false, [])
    match bytes with
    | [] => ended .value
    | b :: rest =>
      if isDigit b then
        let written := natOfDigits ((b :: rest).takeWhile isDigit)
        let rest := rest.dropWhile isDigit
        if written ≤ maxExponent then
          match doubleOf negative significand
              (exponent + if below then -(written : Int) else written) with
          | .error fault => .error fault
          | .ok x => .ok (x, rest)
        else if significand ≠ 0 ∧ below = false then malformed .numberOutOfRange
        else .ok (signedZero negative, rest)
      else malformed .invalidNumber

/-- Reads an exponent if one follows, and makes the double. -/
def optionalExponent (negative : Bool) (significand : Nat) (exponent : Int) : Reader Double :=
  fun bytes =>
    match bytes with
    | b :: rest =>
      if b = 'e'.toUInt8 ∨ b = 'E'.toUInt8 then exponentPart negative significand exponent rest
      else (doubleOf negative significand exponent).map (·, bytes)
    | [] => (doubleOf negative significand exponent).map (·, bytes)

/-- Reads the fraction of a number after its point, and makes the double. -/
def fractionPart (negative : Bool) (significand : Nat) (exponent : Int) : Reader Double :=
  fun bytes =>
    match bytes with
    | [] => ended .value
    | b :: _ =>
      if isDigit b then
        let (found, rest) := digits significand 0 bytes
        optionalExponent negative found.significand (exponent - found.taken) rest
      else malformed .invalidNumber

/-- The number of an integer without fraction and exponent.  Zero with a minus sign and integers
    beyond 64 bits are doubles. -/
def integerNumber (negative : Bool) (found : Digits) : Except Fault Number :=
  if found.dropped ≠ 0 then (doubleOf negative found.significand found.dropped).map .double
  else if negative = false then .ok (.int found.significand)
  else if found.significand = 0 ∨ 0x8000000000000000 < found.significand then
    (doubleOf true found.significand 0).map .double
  else .ok (.int (-(found.significand : Int)))

/-- Reads a number after its sign. -/
def unsignedNumber (negative : Bool) : Reader Number := fun bytes =>
  match bytes with
  | [] => ended .value
  | b :: rest =>
    if isDigit b then
      if b = '0'.toUInt8 ∧ (rest.head?.any isDigit) then malformed .invalidNumber
      else
        let (found, rest) := digits 0 0 bytes
        match rest with
        | mark :: rest' =>
          if mark = '.'.toUInt8 then
            (fractionPart negative found.significand found.dropped rest').map
              fun (x, rest) => (.double x, rest)
          else if mark = 'e'.toUInt8 ∨ mark = 'E'.toUInt8 then
            (exponentPart negative found.significand found.dropped rest').map
              fun (x, rest) => (.double x, rest)
          else (integerNumber negative found).map (·, rest)
        | [] => (integerNumber negative found).map (·, rest)
    else malformed .invalidNumber

/-! ## The front of a value -/

/-- Reads a scalar whole, or just the bracket that opens an array or an object. -/
def front : Reader Found := fun bytes =>
  match dropBlank bytes with
  | [] => ended .value
  | b :: rest =>
    if b = 'n'.toUInt8 then
      (literal ("ull".toList.map Char.toUInt8) rest).map (Found.null, ·)
    else if b = 't'.toUInt8 then
      (literal ("rue".toList.map Char.toUInt8) rest).map (Found.bool true, ·)
    else if b = 'f'.toUInt8 then
      (literal ("alse".toList.map Char.toUInt8) rest).map (Found.bool false, ·)
    else if b = '-'.toUInt8 then
      (unsignedNumber true rest).map fun (n, rest) => (Found.number n, rest)
    else if isDigit b then
      (unsignedNumber false (b :: rest)).map fun (n, rest) => (Found.number n, rest)
    else if b = '"'.toUInt8 then
      (stringRest rest).map fun (s, rest) => (Found.string s, rest)
    else if b = '['.toUInt8 then .ok (Found.sequence, rest)
    else if b = '\x7b'.toUInt8 then .ok (Found.map, rest)
    else malformed .expectedValue

end SearchGateway.Json
