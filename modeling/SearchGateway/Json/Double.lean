/-
  SearchGateway.Json.Double

  Binary64 numbers as JSON texts carry them: built from a decimal significand and
  exponent, and written with the fewest digits that read back.

  The written digits are found on exact integers.  A double stands for `m * 2^q`,
  and every real between the midpoints to its neighbours reads back as it.  Of the
  decimal grids with 1, 2, ... 17 digits the first that has a point in that
  interval wins; of two points on it the nearer, of two equally near the even one.
-/

namespace SearchGateway.Json

/-- A binary64 number, given by its bits. -/
structure Double where
  bits : UInt64
  deriving DecidableEq, Repr, Inhabited

namespace Double

/-- The double of a native float. -/
def ofFloat (x : Float) : Double :=
  ⟨x.toBits⟩

/-! ## Reading -/

/-- The double nearest to a power of ten. -/
def tenPow (exponent : Nat) : Float :=
  Float.ofScientific 1 false exponent

/-- Divides by 10^308 until nothing is left or the given count is used up. -/
def shrink : Nat → Float → Float
  | 0, x => x
  | count + 1, x => if x == 0.0 then x else shrink count (x / tenPow 308)

/-- The size of `significand * 10^exponent`: one rounding of the significand, then one product or
    quotient by a power of ten, after steps of 10^308 for tiny numbers.  None when it is infinite. -/
def magnitude? (significand : Nat) (exponent : Int) : Option Float :=
  let x := significand.toUInt64.toFloat
  if x == 0.0 then some 0.0
  else if 0 ≤ exponent then
    if 308 < exponent then none
    else
      let y := x * tenPow exponent.toNat
      if y.isInf then none else some y
  else
    let distance := exponent.natAbs
    if distance ≤ 308 then some (x / tenPow distance)
    else
      let steps := (distance - 1) / 308
      some (shrink steps x / tenPow (distance - 308 * steps))

/-- The double of a signed decimal; none when it is out of range. -/
def ofDecimal? (negative : Bool) (significand : Nat) (exponent : Int) : Option Double :=
  (magnitude? significand exponent).map fun x => ofFloat (if negative then -x else x)

/-! ## Writing -/

/-- The sign bit. -/
def isNegative (x : Double) : Bool :=
  0x8000000000000000 ≤ x.bits.toNat

/-- The weight of the lowest bit of the exponent field, which stands above the 52 bits of the
    fraction. -/
def exponentUnit : Nat := 0x10000000000000

/-- The fraction field. -/
def fraction (x : Double) : Nat :=
  x.bits.toNat % exponentUnit

/-- The exponent field, of 11 bits. -/
def exponentField (x : Double) : Nat :=
  x.bits.toNat / exponentUnit % 0x800

/-- The integer `m` of the absolute value `m * 2^q`. -/
def mantissa (x : Double) : Nat :=
  if x.exponentField = 0 then x.fraction else exponentUnit + x.fraction

/-- The exponent `q` of the absolute value `m * 2^q`. -/
def scale (x : Double) : Int :=
  if x.exponentField = 0 then -1074 else (x.exponentField : Int) - 1075

/-- `a * 2^p * 10^r` on exact fractions, as numerator and denominator. -/
def ratio (a : Nat) (p r : Int) : Nat × Nat :=
  (a * Nat.pow 2 p.toNat * Nat.pow 10 r.toNat, Nat.pow 2 (-p).toNat * Nat.pow 10 (-r).toNat)

/-- Quarters of the mantissa's unit: the reals from the first to the second, around four times the
    mantissa, read back as `x`. -/
def interval (x : Double) : Nat × Nat :=
  let m := 4 * x.mantissa
  (if x.fraction = 0 ∧ 1 < x.exponentField then m - 1 else m - 2, m + 2)

/-- Whether the decimal `digits * 10^exponent` reads back as `x`; the ends count for an even
    mantissa. -/
def readsBack (x : Double) (digits : Nat) (exponent : Int) : Bool :=
  -- compares `digits * 10^exponent` with the ends, which are counted in units of 2^(q-2)
  let unit := ratio 1 (x.scale - 2) (-exponent)
  let point := digits * unit.2
  let low := x.interval.1 * unit.1
  let high := x.interval.2 * unit.1
  if x.mantissa % 2 = 0 then low ≤ point && point ≤ high else low < point && point < high

/-- The position of the leading digit: the `p` with `10^p ≤ m * 2^q < 10^(p+1)`. -/
def leadingPower (x : Double) : Int :=
  let value := ratio x.mantissa x.scale 0
  if value.2 ≤ value.1 then ((Nat.toDigits 10 (value.1 / value.2)).length : Int) - 1
  else
    -- for a value below one: the inverse rounded up has one digit per leading zero
    -((Nat.toDigits 10 ((value.2 + value.1 - 1) / value.1 - 1)).length : Int)

/-- The point of the grid with `count` digits that reads back and lies nearest, if there is one. -/
def onGrid? (x : Double) (count : Nat) : Option (Nat × Int) :=
  let exponent := x.leadingPower - (count : Int) + 1
  let value := ratio x.mantissa x.scale (-exponent)
  let below := value.1 / value.2
  match x.readsBack below exponent, x.readsBack (below + 1) exponent with
  | false, false => none
  | true, false => some (below, exponent)
  | false, true => some (below + 1, exponent)
  | true, true =>
    let twice := 2 * value.1
    let middle := (2 * below + 1) * value.2
    if twice < middle then some (below, exponent)
    else if middle < twice then some (below + 1, exponent)
    else some (if below % 2 = 0 then below else below + 1, exponent)

/-- The first hit on the grids from `count` digits on. -/
def firstHit (x : Double) : (tries count : Nat) → Nat × Int
  | 0, _ => (x.mantissa, x.scale)
  | tries + 1, count => (x.onGrid? count).getD (firstHit x tries (count + 1))

/-- Moves the trailing zeros of the digits into the exponent. -/
def stripZeros : (fuel digits : Nat) → Int → Nat × Int
  | 0, digits, exponent => (digits, exponent)
  | fuel + 1, digits, exponent =>
    if digits % 10 = 0 ∧ digits ≠ 0 then stripZeros fuel (digits / 10) (exponent + 1)
    else (digits, exponent)

/-- The fewest digits that read back, and their power of ten. -/
def shortest (x : Double) : Nat × Int :=
  let hit := firstHit x 17 1
  stripZeros 20 hit.1 hit.2

/-- How a number is laid out: positional while the decimal point falls from `leftmost` to
    `rightmost` digits after the front of the digits, scientific elsewhere. -/
structure Layout where
  leftmost : Int
  rightmost : Int
  plusSign : Bool

/-- JSON numbers are positional from 0.00001 up to below 10^16 and show the sign of every
    exponent. -/
def layout : Layout :=
  ⟨-4, 16, true⟩

/-- An exponent with its sign. -/
def exponentText (l : Layout) (exponent : Int) : List Char :=
  if exponent < 0 then '-' :: Nat.toDigits 10 exponent.natAbs
  else (if l.plusSign then ['+'] else []) ++ Nat.toDigits 10 exponent.natAbs

/-- Lays out `digits * 10^exponent`; a positional number always shows a decimal point. -/
def layOut (l : Layout) (digits : List Char) (exponent : Int) : List Char :=
  let point := (digits.length : Int) + exponent
  if l.leftmost ≤ point ∧ point ≤ l.rightmost then
    if 0 ≤ exponent then digits ++ List.replicate exponent.toNat '0' ++ ['.', '0']
    else if 0 < point then digits.take point.toNat ++ '.' :: digits.drop point.toNat
    else '0' :: '.' :: (List.replicate (-point).toNat '0' ++ digits)
  else
    match digits with
    | [d] => d :: 'e' :: exponentText l (point - 1)
    | d :: more => d :: '.' :: (more ++ 'e' :: exponentText l (point - 1))
    | [] => []

/-- The text of a finite double. -/
def text (x : Double) : List Char :=
  let sign := if x.isNegative then ['-'] else []
  if x.mantissa = 0 then sign ++ ['0', '.', '0']
  else sign ++ layOut layout (Nat.toDigits 10 x.shortest.1) x.shortest.2

end Double

end SearchGateway.Json
