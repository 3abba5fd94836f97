/-
  SearchGateway.Text.Percent

  Percent-encoding on bytes: `%` and two hexadecimal digits stand for one byte; a
  percent sign without two digits after it stands for itself.
-/
import SearchGateway.Text.Utf8

namespace SearchGateway.Text.Percent

/-- The value of a hexadecimal digit in ASCII. -/
def hexValue? (b : UInt8) : Option Nat :=
  let n := b.toNat
  if 48 ≤ n ∧ n ≤ 57 then some (n - 48)
  else if 65 ≤ n ∧ n ≤ 70 then some (n - 55)
  else if 97 ≤ n ∧ n ≤ 102 then some (n - 87)
  else none

/-- The upper-case hexadecimal digit of a value below 16. -/
def hexDigit (n : Nat) : Char :=
  if n < 10 then Char.ofNat (48 + n) else Char.ofNat (55 + n)

/-- Replaces each escape by its byte. -/
def decode : List UInt8 → List UInt8
  | [] => []
  | [b] => [b]
  | [b, c] => [b, c]
  | b :: c :: d :: rest =>
    if b.toNat = 0x25 then
      match hexValue? c, hexValue? d with
      | some high, some low => (high * 16 + low).toUInt8 :: decode rest
      | _, _ => b :: decode (c :: d :: rest)
    else b :: decode (c :: d :: rest)

/-- The escape of one byte. -/
def encodeByte (b : UInt8) : List Char :=
  ['%', hexDigit (b.toNat / 16), hexDigit (b.toNat % 16)]

/-- Escapes the bytes of every character that is not in the `plain` class. -/
def encode (plain : Char → Bool) (cs : List Char) : List Char :=
  cs.flatMap fun c => if plain c then [c] else (Utf8.encodeChar c).flatMap encodeByte

end SearchGateway.Text.Percent
