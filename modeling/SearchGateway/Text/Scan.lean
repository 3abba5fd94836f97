/-
  SearchGateway.Text.Scan

  Looking for patterns in a text: the first place where a recogniser succeeds,
  words as maximal runs of word characters, and stretches up to a closing
  character.
-/
import SearchGateway.Text.Trim

namespace SearchGateway.Text

/-- The answer of a recogniser at the first position of a text where it has one. -/
def firstMatch {α : Type} (recognise : List Char → Option α) : List Char → Option α
  | [] => recognise []
  | c :: cs =>
    match recognise (c :: cs) with
    | some x => some x
    | none => firstMatch recognise cs

/-- The answer of a recogniser at the first position that has one and does not come right after a
    word character.  `inWord` says whether a word character stands before the text. -/
def firstMatchOutsideWord {α : Type} (recognise : List Char → Option α) :
    (inWord : Bool) → List Char → Option α
  | true, [] => none
  | false, [] => recognise []
  | inWord, c :: cs =>
    match if inWord then none else recognise (c :: cs) with
    | some x => some x
    | none => firstMatchOutsideWord recognise (isWord c) cs

/-- What follows a fixed beginning of a text. -/
def after? : (beginning : List Char) → List Char → Option (List Char)
  | [], cs => some cs
  | _ :: _, [] => none
  | b :: bs, c :: cs => if c = b then after? bs cs else none

/-- Drops the whitespace at the front. -/
def dropSpace (cs : List Char) : List Char :=
  cs.dropWhile isSpace

/-- The stretch before the first closing character and what follows that character; none when the
    text has no closing character. -/
def upTo? (close : Char) (cs : List Char) : Option (List Char × List Char) :=
  match cs.dropWhile (· != close) with
  | [] => none
  | _ :: rest => some (cs.takeWhile (· != close), rest)

/-- The stretch between an opening character at the front and the first closing character after it,
    with what follows. -/
def enclosed? (opening close : Char) : List Char → Option (List Char × List Char)
  | [] => none
  | c :: cs => if c = opening then upTo? close cs else none

/-- The words of a text, in order; `current` is the word that is being read, in reverse order. -/
def wordsOnto (current : List Char) : List Char → List (List Char)
  | [] => if current.isEmpty then [] else [current.reverse]
  | c :: cs =>
    if isWord c then wordsOnto (c :: current) cs
    else if current.isEmpty then wordsOnto [] cs
    else current.reverse :: wordsOnto [] cs

/-- The maximal runs of word characters in a text, in order. -/
def words (cs : List Char) : List (List Char) :=
  wordsOnto [] cs

/-- The parts of a text between the places of a separator; `current` is the part that is being read,
    in reverse order. -/
def splitOnto (separator : Char) (current : List Char) : List Char → List (List Char)
  | [] => [current.reverse]
  | c :: cs =>
    if c = separator then current.reverse :: splitOnto separator [] cs
    else splitOnto separator (c :: current) cs

/-- The parts of a text between the places of a separator: one more than there are separators. -/
def split (separator : Char) (cs : List Char) : List (List Char) :=
  splitOnto separator [] cs

end SearchGateway.Text
