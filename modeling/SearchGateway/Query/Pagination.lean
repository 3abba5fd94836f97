/-
  SearchGateway.Query.Pagination

  The page that query text asks for: `limit:` gives its size and `offset:` where it
  starts.
-/
import SearchGateway.Text.Scan
import SearchGateway.Query.Limits

namespace SearchGateway.Query

open SearchGateway.Text

/-- The size and the start of a page. -/
structure Pagination where
  limit : Int
  after : Option String
  deriving DecidableEq, Repr

/-- The text of an integer at the front: an optional minus sign and decimal digits of any script. -/
def integerText? (cs : List Char) : Option (List Char) :=
  let (sign, rest) := match cs with
    | '-' :: rest => (['-'], rest)
    | _ => ([], cs)
  let digits := rest.takeWhile isDecimalDigit
  if digits.isEmpty then none else some (sign ++ digits)

/-- The text of the integer of a directive that starts here. -/
def directiveHere? (keyword : String) (cs : List Char) : Option (List Char) := do
  let rest ← after? (keyword.toList ++ [':']) cs
  integerText? (dropSpace rest)

/-- The value of ASCII digits; none when another character is among them. -/
def natOfText? (cs : List Char) : Option Nat :=
  cs.foldl (fun n c => if c.isDigit then n.map (· * 10 + (c.toNat - 48)) else none) (some 0)

/-- The integer of 64 bits that a text with an optional minus sign writes in ASCII digits. -/
def int64OfText? (cs : List Char) : Option Int :=
  let value := match cs with
    | '-' :: digits => (natOfText? digits).map fun n => -(n : Int)
    | _ => (natOfText? cs).map fun n => (n : Int)
  value.filter fun n => -0x8000000000000000 ≤ n && n < 0x8000000000000000

/-- The integer of the first directive with a keyword.  The keyword starts a word; a later directive
    does not stand in for a first one whose integer is too large. -/
def directive? (keyword : String) (raw : String) : Option Int :=
  (firstMatchOutsideWord (directiveHere? keyword) false raw.toList).bind int64OfText?

/-- The page that query text asks for.  Its size is capped from above only. -/
def Pagination.ofText (raw : String) : Pagination where
  limit := Limits.pageSize.apply ((directive? "limit" raw).getD Limits.defaultPageSize)
  after := (directive? "offset" raw).map fun n => String.ofList (Json.intText n)

end SearchGateway.Query
