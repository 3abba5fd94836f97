/-
  SearchGateway.Http.MediaType

  Media types of message bodies, as a content-type header names them.
-/

namespace SearchGateway.Http

/-- A media type without its parameters, in lower case.  A suffix is what comes after the last plus
    sign of the subtype. -/
structure MediaType where
  topLevel : List Char
  subtype : List Char
  suffix : Option (List Char)
  deriving DecidableEq, Repr

namespace MediaType

/-- A character of a token. -/
def isTokenChar (c : Char) : Bool :=
  c.isAlphanum || "!#$%&'*+-.^_`|~".toList.contains c

/-- A character that a header shows. -/
def isShown (c : Char) : Bool :=
  (0x20 ≤ c.toNat && c.toNat < 0x7F) || c == '\t'

/-- A character between quotes. -/
def isQuotedChar (c : Char) : Bool :=
  0x20 ≤ c.toNat && c.toNat != 0x7F

/-- What follows a value in quotes whose opening quote has been taken.  The value has at least one
    character, and its first may be a quote. -/
def afterQuoted? : List Char → Option (List Char)
  | [] => none
  | first :: rest =>
    if isQuotedChar first && (rest.takeWhile (· != '"')).all isQuotedChar then
      match rest.dropWhile (· != '"') with
      | [] => none
      | _ :: rest =>
        match rest.dropWhile (· == ' ') with
        | [] => some []
        | ';' :: rest => some rest
        | _ => none
    else none

/-- What follows a value without quotes. -/
def afterPlain? (cs : List Char) : Option (List Char) :=
  match cs.dropWhile isTokenChar with
  | [] => some []
  | ';' :: rest => if (cs.takeWhile isTokenChar).isEmpty then none else some rest
  | _ => none

/-- What follows the value of a parameter. -/
def afterValue? : List Char → Option (List Char)
  | '"' :: rest => afterQuoted? rest
  | cs => afterPlain? cs

/-- Whether a text is a list of parameters, each of which may have spaces before it; the last may be
    left out.  Every step takes a character, so a clock as long as the text never runs out. -/
def areParameters : (clock : List Char) → List Char → Bool
  | _, [] => true
  | [], _ => false
  | _ :: clock, c :: cs =>
    if c = ' ' then areParameters clock cs
    else
      let name := (c :: cs).takeWhile isTokenChar
      match (c :: cs).dropWhile isTokenChar with
      | '=' :: rest =>
        if name.isEmpty then false
        else
          match afterValue? rest with
          | none => false
          | some rest => areParameters clock rest
      | _ => false

/-- The parts of a subtype around its last plus sign, unless that begins the subtype. -/
def splitSuffix (subtype : List Char) : List Char × Option (List Char) :=
  let suffix := (subtype.reverse.takeWhile (· != '+')).reverse
  if suffix.length + 1 < subtype.length then
    (subtype.take (subtype.length - suffix.length - 1), some suffix)
  else (subtype, none)

/-- Reads a media type. -/
def ofText? (text : String) : Option MediaType :=
  let cs := text.toList.map Char.toLower
  let topLevel := cs.takeWhile isTokenChar
  match cs.dropWhile isTokenChar with
  | '/' :: rest =>
    let written := rest.takeWhile isTokenChar
    let wellFormed :=
      match rest.dropWhile isTokenChar with
      | [] => true
      | c :: parameters =>
        c == ';' && !written.isEmpty && areParameters parameters parameters
    if cs.all isShown && !topLevel.isEmpty && wellFormed then
      let (subtype, suffix) := splitSuffix written
      some ⟨topLevel, subtype, suffix⟩
    else none
  | _ => none

/-- Whether a media type is JSON, by its subtype or its suffix. -/
def isJson (type : MediaType) : Bool :=
  type.topLevel == "application".toList &&
    (type.subtype == "json".toList || type.suffix == some "json".toList)

end MediaType

end SearchGateway.Http
