/-
  SearchGateway.Text.Trim

  Cutting a class of characters off the ends of a text.
-/
import SearchGateway.Text.CharClass

namespace SearchGateway.Text

/-- Drops the characters of a class from the end. -/
def trimEnd (p : Char → Bool) (cs : List Char) : List Char :=
  (cs.reverse.dropWhile p).reverse

/-- Drops the characters of a class from both ends. -/
def trimBy (p : Char → Bool) (cs : List Char) : List Char :=
  trimEnd p (cs.dropWhile p)

/-- Drops the whitespace at both ends. -/
def trim (cs : List Char) : List Char :=
  trimBy isSpace cs

/-- Whether a text is nothing but whitespace. -/
def isBlank (cs : List Char) : Bool :=
  cs.all isSpace

end SearchGateway.Text
