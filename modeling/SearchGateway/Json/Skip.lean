/-
  SearchGateway.Json.Skip

  Passing over a value whose content does not matter.  Only the grammar is checked:
  numbers may have any size, escapes may write lone surrogates, strings may hold
  any bytes, and there is no limit on nesting, because the open brackets are kept
  in a list instead of on a call stack.
-/
import SearchGateway.Json.Lexeme

namespace SearchGateway.Json

/-! ## Scalars -/

/-- Passes over the rest of a string, up to its closing quote. -/
def skipString : List UInt8 → Except Fault (List UInt8)
  | [] => ended .string
  | b :: rest =>
    if b = '"'.toUInt8 then .ok rest
    else if b = '\\'.toUInt8 then
      match rest with
      | [] => ended .string
      | letter :: rest =>
        if letter = 'u'.toUInt8 then
          match rest with
          | h₁ :: h₂ :: h₃ :: h₄ :: rest =>
            if (codeUnit? h₁ h₂ h₃ h₄).isSome then skipString rest else malformed .invalidEscape
          | _ => ended .string
        else if (shortEscape? letter).isSome then skipString rest
        else malformed .invalidEscape
    else if b < 0x20 then malformed .controlCharacter
    else skipString rest

/-- Passes over one or more digits. -/
def skipDigits : List UInt8 → Except Fault (List UInt8)
  | [] => malformed .invalidNumber
  | b :: rest => if isDigit b then .ok (rest.dropWhile isDigit) else malformed .invalidNumber

/-- Passes over an exponent if one follows. -/
def skipExponent : List UInt8 → Except Fault (List UInt8)
  | [] => .ok []
  | b :: rest =>
    if b = 'e'.toUInt8 ∨ b = 'E'.toUInt8 then
      match rest with
      | [] => malformed .invalidNumber
      | sign :: digits =>
        if sign = '+'.toUInt8 ∨ sign = '-'.toUInt8 then skipDigits digits else skipDigits rest
    else .ok (b :: rest)

/-- Passes over a fraction and an exponent, as far as they follow. -/
def skipFraction : List UInt8 → Except Fault (List UInt8)
  | [] => .ok []
  | b :: rest =>
    if b = '.'.toUInt8 then
      match skipDigits rest with
      | .error fault => .error fault
      | .ok rest => skipExponent rest
    else skipExponent (b :: rest)

/-- Passes over a number after its sign. -/
def skipNumber : List UInt8 → Except Fault (List UInt8)
  | [] => malformed .invalidNumber
  | b :: rest =>
    if b = '0'.toUInt8 then
      if rest.head?.any isDigit then malformed .invalidNumber else skipFraction rest
    else if isDigit b then skipFraction (rest.dropWhile isDigit)
    else malformed .invalidNumber

/-! ## Values -/

/-- A bracket that has been opened and not yet closed. -/
inductive Bracket where
  | array
  | object
  deriving DecidableEq, Repr

/-- What may stand next in the text. -/
inductive Expecting where
  | value
  /-- The first item of an array, or its end. -/
  | firstItem
  /-- The first key of an object, or its end. -/
  | firstKey
  /-- A key after a comma. -/
  | key
  /-- What follows a complete value. -/
  | next
  deriving DecidableEq, Repr

/-- Takes the colon between a key and its value. -/
def colon (bytes : List UInt8) : Except Fault (List UInt8) :=
  match dropBlank bytes with
  | [] => ended .object
  | b :: rest => if b = ':'.toUInt8 then .ok rest else malformed .expectedColon

/-- Passes over a key and its colon. -/
def skipKey (bytes : List UInt8) : Except Fault (List UInt8) :=
  match dropBlank bytes with
  | [] => ended .object
  | b :: rest =>
    if b = '"'.toUInt8 then
      match skipString rest with
      | .error fault => .error fault
      | .ok rest => colon rest
    else malformed .keyMustBeString

/-- Passes over a scalar, or just over an opening bracket; says what follows and which brackets are
    open then. -/
def skipFront (outer : List Bracket) (bytes : List UInt8) :
    Except Fault (Expecting × List Bracket × List UInt8) :=
  match dropBlank bytes with
  | [] => ended .value
  | b :: rest =>
    if b = '['.toUInt8 then .ok (.firstItem, .array :: outer, rest)
    else if b = '\x7b'.toUInt8 then .ok (.firstKey, .object :: outer, rest)
    else
      let skipped :=
        if b = 'n'.toUInt8 then literal ("ull".toList.map Char.toUInt8) rest
        else if b = 't'.toUInt8 then literal ("rue".toList.map Char.toUInt8) rest
        else if b = 'f'.toUInt8 then literal ("alse".toList.map Char.toUInt8) rest
        else if b = '-'.toUInt8 then skipNumber rest
        else if isDigit b then skipNumber (b :: rest)
        else if b = '"'.toUInt8 then skipString rest
        else malformed .expectedValue
      match skipped with
      | .error fault => .error fault
      | .ok rest => .ok (.next, outer, rest)

/-- Passes over what is left of a value inside the given open brackets.  Every step but the last
    takes a byte, so a clock of one entry for each byte and one more never runs out. -/
def skipWithin : List UInt8 → Expecting → List Bracket → List UInt8 → Except Fault (List UInt8)
  | [], _, _, _ => ended .value
  | _ :: clock, .value, outer, bytes =>
    match skipFront outer bytes with
    | .error fault => .error fault
    | .ok (expecting, outer, rest) => skipWithin clock expecting outer rest
  | _ :: clock, .firstItem, outer, bytes =>
    match dropBlank bytes with
    | [] => ended .list
    | b :: rest =>
      if b = ']'.toUInt8 then skipWithin clock .next outer.tail rest
      else
        match skipFront outer (b :: rest) with
        | .error fault => .error fault
        | .ok (expecting, outer, rest) => skipWithin clock expecting outer rest
  | _ :: clock, .firstKey, outer, bytes =>
    match dropBlank bytes with
    | [] => ended .object
    | b :: rest =>
      if b = '\x7d'.toUInt8 then skipWithin clock .next outer.tail rest
      else
        match skipKey (b :: rest) with
        | .error fault => .error fault
        | .ok rest => skipWithin clock .value outer rest
  | _ :: clock, .key, outer, bytes =>
    match skipKey bytes with
    | .error fault => .error fault
    | .ok rest => skipWithin clock .value outer rest
  | _, .next, [], bytes => .ok bytes
  | _ :: clock, .next, .array :: outer, bytes =>
    match dropBlank bytes with
    | [] => ended .list
    | b :: rest =>
      if b = ','.toUInt8 then skipWithin clock .value (.array :: outer) rest
      else if b = ']'.toUInt8 then skipWithin clock .next outer rest
      else malformed .expectedListCommaOrEnd
  | _ :: clock, .next, .object :: outer, bytes =>
    match dropBlank bytes with
    | [] => ended .object
    | b :: rest =>
      if b = ','.toUInt8 then skipWithin clock .key (.object :: outer) rest
      else if b = '\x7d'.toUInt8 then skipWithin clock .next outer rest
      else malformed .expectedObjectCommaOrEnd

/-- Passes over one value. -/
def skip (bytes : List UInt8) : Except Fault (List UInt8) :=
  skipWithin (0 :: bytes) .value [] bytes

end SearchGateway.Json
