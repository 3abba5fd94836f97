/-
  SearchGateway.Text.Utf8

  UTF-8 on lists of bytes.  Encoding is written with quotients and remainders.
  Decoding cuts the bytes into pieces, each a character or a maximal ill-formed
  part; the strict decoder refuses ill-formed parts and the lossy one shows each
  as U+FFFD.
-/

namespace SearchGateway.Text.Utf8

/-! ## Encoding -/

/-- The bytes of one character. -/
def encodeChar (c : Char) : List UInt8 :=
  let n := c.toNat
  if n < 0x80 then [n.toUInt8]
  else if n < 0x800 then [(0xC0 + n / 64).toUInt8, (0x80 + n % 64).toUInt8]
  else if n < 0x10000 then
    [(0xE0 + n / 4096).toUInt8, (0x80 + n / 64 % 64).toUInt8, (0x80 + n % 64).toUInt8]
  else
    [(0xF0 + n / 262144).toUInt8, (0x80 + n / 4096 % 64).toUInt8, (0x80 + n / 64 % 64).toUInt8,
      (0x80 + n % 64).toUInt8]

/-- The bytes of a text. -/
def encode (cs : List Char) : List UInt8 :=
  cs.flatMap encodeChar

/-- The bytes of a string. -/
def ofString (s : String) : List UInt8 :=
  encode s.toList

/-! ## Decoding -/

/-- What the front of a byte sequence holds. -/
inductive Piece where
  /-- A well-formed character. -/
  | char (c : Char)
  /-- A maximal part that begins no well-formed character. -/
  | illFormed
  deriving DecidableEq, Repr

/-- A byte that may continue a character. -/
def isContinuation (b : UInt8) : Bool :=
  0x80 ≤ b.toNat && b.toNat ≤ 0xBF

/-- The second bytes allowed after a lead byte of three or four bytes: they keep out overlong forms,
    surrogates and code points beyond U+10FFFF. -/
def isSecond (lead second : UInt8) : Bool :=
  if lead.toNat = 0xE0 then 0xA0 ≤ second.toNat && second.toNat ≤ 0xBF
  else if lead.toNat = 0xED then 0x80 ≤ second.toNat && second.toNat ≤ 0x9F
  else if lead.toNat = 0xF0 then 0x90 ≤ second.toNat && second.toNat ≤ 0xBF
  else if lead.toNat = 0xF4 then 0x80 ≤ second.toNat && second.toNat ≤ 0x8F
  else isContinuation second

/-- The low six bits of a continuation byte. -/
def payload (b : UInt8) : Nat :=
  b.toNat - 0x80

/-- The first piece of `lead :: rest` and the bytes after it. -/
def next (lead : UInt8) (rest : List UInt8) : Piece × List UInt8 :=
  if lead.toNat < 0x80 then (.char (Char.ofNat lead.toNat), rest)
  else if lead.toNat < 0xC2 then (.illFormed, rest)
  else if lead.toNat < 0xE0 then
    match rest with
    | b :: rest' =>
      if isContinuation b then
        (.char (Char.ofNat ((lead.toNat - 0xC0) * 64 + payload b)), rest')
      else (.illFormed, rest)
    | [] => (.illFormed, [])
  else if lead.toNat < 0xF0 then
    match rest with
    | b :: rest' =>
      if isSecond lead b then
        match rest' with
        | c :: rest'' =>
          if isContinuation c then
            (.char (Char.ofNat ((lead.toNat - 0xE0) * 4096 + payload b * 64 + payload c)), rest'')
          else (.illFormed, rest')
        | [] => (.illFormed, [])
      else (.illFormed, rest)
    | [] => (.illFormed, [])
  else if lead.toNat < 0xF5 then
    match rest with
    | b :: rest' =>
      if isSecond lead b then
        match rest' with
        | c :: rest'' =>
          if isContinuation c then
            match rest'' with
            | d :: rest''' =>
              if isContinuation d then
                (.char (Char.ofNat
                  ((lead.toNat - 0xF0) * 262144 + payload b * 4096 + payload c * 64 + payload d)),
                  rest''')
              else (.illFormed, rest'')
            | [] => (.illFormed, [])
          else (.illFormed, rest')
        | [] => (.illFormed, [])
      else (.illFormed, rest)
    | [] => (.illFormed, [])
  else (.illFormed, rest)

/-- A piece never gives bytes back. -/
theorem length_next_le (lead : UInt8) (rest : List UInt8) :
    (next lead rest).2.length ≤ rest.length := by
  unfold next
  repeat' split
  all_goals simp
  all_goals omega

/-- Puts the pieces of a byte sequence, in reverse order, in front of the pieces found before. -/
def piecesOnto (found : List Piece) : List UInt8 → List Piece
  | [] => found
  | lead :: rest => piecesOnto ((next lead rest).1 :: found) (next lead rest).2
termination_by bytes => bytes.length
decreasing_by
  have := length_next_le lead rest
  simp only [List.length_cons]; omega

/-- The pieces of a byte sequence, in order. -/
def pieces (bytes : List UInt8) : List Piece :=
  (piecesOnto [] bytes).reverse

/-- Pieces found before stay behind those found later. -/
theorem piecesOnto_append (found before : List Piece) (bytes : List UInt8) :
    piecesOnto (found ++ before) bytes = piecesOnto found bytes ++ before := by
  fun_induction piecesOnto found bytes with
  | case1 => simp [piecesOnto]
  | case2 found lead rest ih => rw [← ih, piecesOnto, List.cons_append]

@[simp] theorem pieces_nil : pieces [] = [] := by
  simp [pieces, piecesOnto]

/-- The pieces are the first one and those of what follows it. -/
theorem pieces_cons (lead : UInt8) (rest : List UInt8) :
    pieces (lead :: rest) = (next lead rest).1 :: pieces (next lead rest).2 := by
  unfold pieces
  rw [piecesOnto]
  have := piecesOnto_append [] [(next lead rest).1] (next lead rest).2
  simp only [List.nil_append] at this
  simp [this]

/-- The text of a well-formed byte sequence. -/
def decode? (bytes : List UInt8) : Option (List Char) :=
  (pieces bytes).mapM fun
    | .char c => some c
    | .illFormed => none

/-- The text of any byte sequence, with U+FFFD for each ill-formed part. -/
def decodeLossy (bytes : List UInt8) : List Char :=
  (pieces bytes).map fun
    | .char c => c
    | .illFormed => '\uFFFD'

end SearchGateway.Text.Utf8
