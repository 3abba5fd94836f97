/-
  SearchGateway.Config.SocketAddress

  The addresses that a server can listen at: an IPv4 address in four decimal parts,
  or an IPv6 address in brackets, with a port.
-/

namespace SearchGateway.Config

/-- An internet address with a port. -/
inductive SocketAddress where
  | v4 (a b c d port : Nat)
  | v6 (groups : List Nat) (port : Nat)
  deriving DecidableEq, Repr

namespace SocketAddress

/-- A digit of a number in the given base. -/
def digitValue? (base : Nat) (c : Char) : Option Nat :=
  let value :=
    if c.isDigit then some (c.toNat - 48)
    else if 'a' ≤ c ∧ c ≤ 'f' then some (c.toNat - 87)
    else if 'A' ≤ c ∧ c ≤ 'F' then some (c.toNat - 55)
    else none
  value.filter (· < base)

/-- The number at the front of a text, with the text after it.  It has at most `maxDigits` digits,
    where a limit is given, and stays below `bound`. -/
def number? (base bound : Nat) (maxDigits : Option Nat) (allowZeroPrefix : Bool)
    (cs : List Char) : Option (Nat × List Char) :=
  let digits := cs.takeWhile fun c => (digitValue? base c).isSome
  let value := digits.foldl (fun n c => n * base + (digitValue? base c).getD 0) 0
  let tooLong := maxDigits.any (· < digits.length)
  let zeroPrefix := digits.head? == some '0' && 1 < digits.length
  if digits.isEmpty || tooLong || (zeroPrefix && !allowZeroPrefix) || bound ≤ value then none
  else some (value, cs.drop digits.length)

/-- What follows a character at the front. -/
def after? (c : Char) : List Char → Option (List Char)
  | [] => none
  | d :: rest => if d = c then some rest else none

/-- The four parts of an IPv4 address at the front; a part has no leading zeros. -/
def ipv4? (cs : List Char) : Option ((Nat × Nat × Nat × Nat) × List Char) := do
  let (a, cs) ← number? 10 256 (some 3) false cs
  let (b, cs) ← number? 10 256 (some 3) false (← after? '.' cs)
  let (c, cs) ← number? 10 256 (some 3) false (← after? '.' cs)
  let (d, cs) ← number? 10 256 (some 3) false (← after? '.' cs)
  return ((a, b, c, d), cs)

/-- Groups of an IPv6 address at the front, at most `room` of them: groups of hexadecimal digits
    between colons, the last two of which may be written as an IPv4 address.  Says whether they end
    in one. -/
def groups (first : Bool) : (room : Nat) → List Char → List Nat × Bool × List Char
  | 0, cs => ([], false, cs)
  | room + 1, cs =>
    let start := if first then some cs else after? ':' cs
    match start with
    | none => ([], false, cs)
    | some start =>
      match if 1 ≤ room then ipv4? start else none with
      | some ((a, b, c, d), rest) => ([a * 256 + b, c * 256 + d], true, rest)
      | none =>
        match number? 16 65536 (some 4) true start with
        | none => ([], false, cs)
        | some (group, rest) =>
          let (more, endsInIpv4, rest) := groups false room rest
          (group :: more, endsInIpv4, rest)

/-- The eight groups of an IPv6 address at the front; two colons stand for one or more zeros. -/
def ipv6? (cs : List Char) : Option (List Nat × List Char) := do
  let (head, headIpv4, rest) := groups true 8 cs
  if head.length = 8 then return (head, rest)
  if headIpv4 then none
  let rest ← after? ':' (← after? ':' rest)
  let (tail, _, rest) := groups true (8 - (head.length + 1)) rest
  return (head ++ List.replicate (8 - head.length - tail.length) 0 ++ tail, rest)

/-- Drops a zone at the front: a percent sign and a number of 32 bits. -/
def afterZone? (cs : List Char) : Option (List Char) :=
  match cs with
  | '%' :: rest => (number? 10 UInt32.size none true rest).map Prod.snd
  | _ => some cs

/-- The port after a colon at the front. -/
def port? (cs : List Char) : Option (Nat × List Char) := do
  number? 10 65536 none true (← after? ':' cs)

/-- Reads an address with a port. -/
def ofText? (text : String) : Option SocketAddress :=
  let cs := text.toList
  let v4 := do
    let ((a, b, c, d), rest) ← ipv4? cs
    let (port, rest) ← port? rest
    if rest.isEmpty then some (v4 a b c d port) else none
  let v6 := do
    let (groups, rest) ← ipv6? (← after? '[' cs)
    let rest ← after? ']' (← afterZone? rest)
    let (port, rest) ← port? rest
    if rest.isEmpty then some (v6 groups port) else none
  v4.or v6

/-- Whether an address is one of every host: the unspecified address or a loopback one. -/
def isLocal : SocketAddress → Bool
  | v4 a b c d _ => a == 127 || [a, b, c, d] == [0, 0, 0, 0]
  | v6 groups _ =>
    groups == [0, 0, 0, 0, 0, 0, 0, 0] || groups == [0, 0, 0, 0, 0, 0, 0, 1]

end SocketAddress

end SearchGateway.Config
