/-
  SearchGateway.Text.CharClass

  Character classes of the query text: word characters, decimal digits and
  whitespace over all of Unicode.  The ASCII part of each class is written out, so
  that a statement about punctuation or ASCII names needs no table.
-/
import SearchGateway.Text.WordTable
import SearchGateway.Text.DigitTable
import SearchGateway.Text.HiddenTable

namespace SearchGateway.Text

/-- Whether a code point lies in one of the given inclusive ranges. -/
def inRanges (ranges : List (Nat × Nat)) (code : Nat) : Bool :=
  ranges.any fun range => range.1 ≤ code && code ≤ range.2

/-- An ASCII letter, digit or underscore. -/
def isAsciiWord (c : Char) : Bool :=
  c.isAlphanum || c == '_'

/-- A word character: a letter or other alphabetic character, a mark, a decimal digit, a connector
    such as the underscore, or a join control. -/
def isWord (c : Char) : Bool :=
  if c.toNat < 128 then isAsciiWord c
  else if c.toNat < 0x10000 then inRanges wordRangesBasic c.toNat
  else inRanges wordRangesSupplementary c.toNat

/-- A decimal digit of any script. -/
def isDecimalDigit (c : Char) : Bool :=
  if c.toNat < 128 then c.isDigit else inRanges digitRanges c.toNat

/-- The code points with the White_Space property. -/
def spaceRanges : List (Nat × Nat) := [
  (0x0009, 0x000D), (0x0020, 0x0020), (0x0085, 0x0085), (0x00A0, 0x00A0), (0x1680, 0x1680),
  (0x2000, 0x200A), (0x2028, 0x2029), (0x202F, 0x202F), (0x205F, 0x205F), (0x3000, 0x3000)]

/-- A whitespace character. -/
def isSpace (c : Char) : Bool :=
  inRanges spaceRanges c.toNat

/-- A character that a quoted text shows by its code point: it has no glyph of its own, or it
    changes the character before it. -/
def isHidden (c : Char) : Bool :=
  if c.toNat < 0x20 || c.toNat == 0x7F then true
  else if c.toNat < 128 then false
  else if c.toNat < 0x10000 then inRanges hiddenRangesBasic c.toNat
  else inRanges hiddenRangesSupplementary c.toNat

end SearchGateway.Text
