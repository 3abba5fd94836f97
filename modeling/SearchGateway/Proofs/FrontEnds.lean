/-
  SearchGateway.Proofs.FrontEnds

  A structured search may be submitted to the gateway, as bytes, and on the command
  line, as text.  Both look at the collection, then at the body, then at the caps,
  and they come to the same outcome on every body but one kind: whitespace that is
  not all ASCII is an empty search on the command line and no JSON for the gateway.
-/
import SearchGateway.CommandLine.Run
import SearchGateway.Gateway.Body
import SearchGateway.Proofs.Utf8
import SearchGateway.Proofs.Verdict

namespace SearchGateway.CommandLine

open SearchGateway.Gateway (GatewayError isAsciiSpace validateBody)
open SearchGateway.Query (Collection Search SearchBody)
open SearchGateway.Text
open SearchGateway.Text.Utf8

/-! ## Whitespace in text and in bytes -/

/-- A tab, line feed, form feed, carriage return or space. -/
def isAsciiBlank (c : Char) : Bool :=
  c == '\t' || c == '\n' || c == '\x0C' || c == '\r' || c == ' '

theorem isSpace_of_isAsciiBlank {c : Char} (h : isAsciiBlank c = true) : isSpace c = true := by
  simp only [isAsciiBlank, Bool.or_eq_true, beq_iff_eq] at h
  rcases h with (((rfl | rfl) | rfl) | rfl) | rfl <;> decide

theorem toNat_lt_of_isAsciiBlank {c : Char} (h : isAsciiBlank c = true) : c.toNat < 0x80 := by
  simp only [isAsciiBlank, Bool.or_eq_true, beq_iff_eq] at h
  rcases h with (((rfl | rfl) | rfl) | rfl) | rfl <;> decide

theorem toNat_lt_of_isAsciiSpace {b : UInt8} (h : isAsciiSpace b = true) : b.toNat < 0x80 := by
  simp only [isAsciiSpace, Bool.or_eq_true, beq_iff_eq] at h
  rcases h with (((rfl | rfl) | rfl) | rfl) | rfl <;> decide

theorem toUInt8_beq {c d : Char} (hc : c.toNat < 256) (hd : d.toNat < 256) :
    (c.toUInt8 == d.toUInt8) = (c == d) := by
  rw [Bool.eq_iff_iff, beq_iff_eq, beq_iff_eq]
  exact ⟨eq_of_toUInt8_eq hc hd, fun h => congrArg Char.toUInt8 h⟩

/-- The bytes of a character are ASCII whitespace when the character is. -/
theorem all_isAsciiSpace_encodeChar (c : Char) :
    (encodeChar c).all isAsciiSpace = isAsciiBlank c := by
  by_cases hc : c.toNat < 0x80
  · have hbyte (d : Char) (hd : d.toNat < 256) : (c.toUInt8 == d.toUInt8) = (c == d) :=
      toUInt8_beq (Nat.lt_trans hc (by decide)) hd
    have hclass : isAsciiSpace c.toUInt8 = isAsciiBlank c := by
      rw [isAsciiBlank, ← hbyte '\t' (by decide), ← hbyte '\n' (by decide),
        ← hbyte '\x0C' (by decide), ← hbyte '\r' (by decide), ← hbyte ' ' (by decide)]
      rfl
    rw [encodeChar_ascii hc, List.all_cons, List.all_nil, Bool.and_true, hclass]
  · -- beyond ASCII neither the character nor the first of its bytes is such whitespace
    have hchar : isAsciiBlank c = false := by
      rw [← Bool.not_eq_true]
      exact fun h => hc (toNat_lt_of_isAsciiBlank h)
    obtain ⟨lead, more, hbytes, -⟩ := next_encodeChar c []
    have hlead : isAsciiSpace lead = false := by
      rw [← Bool.not_eq_true]
      intro h
      have hbeyond : 0x80 ≤ lead.toNat :=
        le_of_mem_encodeChar (Nat.le_of_not_lt hc) (by rw [hbytes]; exact List.mem_cons_self)
      have hwithin := toNat_lt_of_isAsciiSpace h
      omega
    rw [hbytes, List.all_cons, hlead, hchar, Bool.false_and]

theorem all_isAsciiSpace_ofString (body : String) :
    (ofString body).all isAsciiSpace = body.toList.all isAsciiBlank := by
  rw [ofString, encode, List.all_flatMap]
  exact congrArg body.toList.all (funext all_isAsciiSpace_encodeChar)

/-! ## Whitespace is no JSON -/

/-- The code point of a whitespace character is that of a space or below, or it is beyond ASCII. -/
theorem toNat_of_isSpace {c : Char} (h : isSpace c = true) : c.toNat ≤ 0x20 ∨ 0x80 ≤ c.toNat := by
  simp only [isSpace, inRanges, spaceRanges, List.any_cons, List.any_nil, Bool.or_false,
    Bool.or_eq_true, Bool.and_eq_true, decide_eq_true_eq] at h
  omega

theorem toNat_of_mem_blank {cs : List Char} (h : isBlank cs = true) {b : UInt8}
    (hb : b ∈ encode cs) : b.toNat ≤ 0x20 ∨ 0x80 ≤ b.toNat := by
  obtain ⟨c, hc, hbyte⟩ := List.mem_flatMap.mp hb
  have hspace := toNat_of_isSpace (List.all_eq_true.mp h c hc)
  by_cases hascii : c.toNat < 0x80
  · rw [encodeChar_ascii hascii, List.mem_singleton] at hbyte
    rw [hbyte, toNat_charByte (by omega)]
    exact hspace
  · exact .inr (le_of_mem_encodeChar (Nat.le_of_not_lt hascii) hbyte)

/-- A value opens with a visible ASCII character. -/
theorem front_fault {bytes : List UInt8}
    (h : ∀ b ∈ bytes, b.toNat ≤ 0x20 ∨ 0x80 ≤ b.toNat) :
    ∃ fault, Json.front bytes = .error fault := by
  unfold Json.front
  cases hrest : Json.dropBlank bytes with
  | nil => exact ⟨_, rfl⟩
  | cons b rest =>
    have hsuffix : b :: rest <:+ bytes := hrest ▸ List.dropWhile_suffix Json.isBlank
    have hb := h b (hsuffix.mem List.mem_cons_self)
    have hne (d : UInt8) (hd : 0x20 < d.toNat ∧ d.toNat < 0x80) : b ≠ d := by
      rintro rfl
      omega
    have hdigit : Json.isDigit b = false := by
      rw [Json.isDigit, Json.digit?, if_neg]
      · rfl
      · rintro ⟨hlow, hhigh⟩
        have hlow' : 0x30 ≤ b.toNat := UInt8.le_iff_toNat_le.mp hlow
        have hhigh' : b.toNat ≤ 0x39 := UInt8.le_iff_toNat_le.mp hhigh
        omega
    refine ⟨⟨.malformed .expectedValue, []⟩, ?_⟩
    simp only [hdigit, if_neg (hne 'n'.toUInt8 (by decide)), if_neg (hne 't'.toUInt8 (by decide)),
      if_neg (hne 'f'.toUInt8 (by decide)), if_neg (hne '-'.toUInt8 (by decide)),
      if_neg (hne '"'.toUInt8 (by decide)), if_neg (hne '['.toUInt8 (by decide)),
      if_neg (hne '\x7b'.toUInt8 (by decide)), Bool.false_eq_true, if_false]
    rfl

/-- A text of whitespace is no search body. -/
theorem parse_blank_fault {body : String} (h : isBlank body.toList = true) :
    ∃ fault, SearchBody.parse (ofString body) = .error fault := by
  obtain ⟨fault, hfront⟩ := front_fault fun b hb => toNat_of_mem_blank h hb
  refine ⟨fault, ?_⟩
  have hread : SearchBody.shape.read Json.maxDepth (ofString body) = .error fault := by
    simp only [Json.Shape.read, ofString, hfront]
  simp only [SearchBody.parse, Json.read, hread]

/-! ## The two front ends -/

/-- An error of the gateway, as the command line shows it. -/
def Rejection.ofGateway (error : GatewayError) : Rejection :=
  ⟨error.code, error.message⟩

/-- The outcome of the gateway for a body in UTF-8. -/
def gatewayOutcome (collection body : String) : Except Rejection Search :=
  (validateBody collection (ofString body)).mapError .ofGateway

/-- A text of whitespace that is not all ASCII whitespace. -/
def IsOddBlank (body : String) : Prop :=
  isBlank body.toList = true ∧ body.toList.all isAsciiBlank = false

/-- What a body asks for that is not taken for an empty one: it is parsed, and then it is
    validated. -/
def parsedOutcome (collection body : String) : Except Rejection Search :=
  match SearchBody.parse (ofString body) with
  | .error fault => .error (.ofFault fault)
  | .ok searchBody => (Query.validate collection searchBody).mapError .ofQuery

/-- Both front ends look at the collection before the body. -/
theorem outcomes_of_unsupported {collection : String} (h : collection ∉ Collection.identifiers)
    (body : String) :
    validateText collection body = .error (.ofQuery (.unsupportedEndpoint collection)) ∧
      gatewayOutcome collection body = .error (.ofQuery (.unsupportedEndpoint collection)) := by
  have hresolve := Query.resolveCollection_of_notMem h
  constructor
  · rw [validateText, hresolve]
  · rw [gatewayOutcome, validateBody, hresolve]
    rfl

section Supported

variable {collection : String}

theorem resolveCollection_of_mem (h : collection ∈ Collection.identifiers) :
    ∃ found, Query.resolveCollection collection = .ok found := by
  obtain ⟨found, hid⟩ := Query.exists_id_of_mem h
  exact ⟨found, Query.resolveCollection_eq_ok_iff.mpr hid⟩

/-- The command line parses every text that is not all whitespace. -/
theorem validateText_of_not_blank (h : collection ∈ Collection.identifiers) {body : String}
    (hbody : isBlank body.toList = false) :
    validateText collection body = parsedOutcome collection body := by
  obtain ⟨found, hresolve⟩ := resolveCollection_of_mem h
  rw [validateText, hresolve, parseSearchText, parsedOutcome]
  simp only [hbody, Bool.false_eq_true, if_false]
  cases SearchBody.parse (ofString body) <;> rfl

theorem validateText_of_blank (h : collection ∈ Collection.identifiers) {body : String}
    (hbody : isBlank body.toList = true) :
    validateText collection body = (Query.validate collection {}).mapError .ofQuery := by
  obtain ⟨found, hresolve⟩ := resolveCollection_of_mem h
  rw [validateText, hresolve, parseSearchText]
  simp only [hbody, if_true]

/-- An error of validation is shown alike by both front ends. -/
theorem ofGateway_query (x : Except Query.QueryError Search) :
    (x.mapError GatewayError.query).mapError Rejection.ofGateway = x.mapError .ofQuery := by
  cases x <;> rfl

/-- The gateway parses every body that is not all ASCII whitespace. -/
theorem gatewayOutcome_of_not_asciiBlank (h : collection ∈ Collection.identifiers)
    {body : String} (hbody : body.toList.all isAsciiBlank = false) :
    gatewayOutcome collection body = parsedOutcome collection body := by
  obtain ⟨found, hresolve⟩ := resolveCollection_of_mem h
  rw [gatewayOutcome, validateBody, hresolve, Gateway.parseSearchBody, all_isAsciiSpace_ofString,
    parsedOutcome]
  simp only [hbody, Bool.false_eq_true, if_false]
  cases SearchBody.parse (ofString body) with
  | error fault => rfl
  | ok searchBody => exact ofGateway_query _

theorem gatewayOutcome_of_asciiBlank (h : collection ∈ Collection.identifiers) {body : String}
    (hbody : body.toList.all isAsciiBlank = true) :
    gatewayOutcome collection body = (Query.validate collection {}).mapError .ofQuery := by
  obtain ⟨found, hresolve⟩ := resolveCollection_of_mem h
  rw [gatewayOutcome, validateBody, hresolve, Gateway.parseSearchBody, all_isAsciiSpace_ofString]
  simp only [hbody, if_true]
  exact ofGateway_query _

theorem isBlank_of_asciiBlank {cs : List Char} (h : cs.all isAsciiBlank = true) :
    isBlank cs = true :=
  List.all_eq_true.mpr fun c hc => isSpace_of_isAsciiBlank (List.all_eq_true.mp h c hc)

/-- An empty search of a supported collection is accepted. -/
theorem validate_empty (h : collection ∈ Collection.identifiers) :
    ∃ search, Query.validate collection {} = .ok search := by
  obtain ⟨found, hid⟩ := Query.exists_id_of_mem h
  refine ⟨⟨found, SearchBody.toRequest {} found⟩, Query.validate_eq_iff_verdict.mpr ?_⟩
  exact .accepted hid ⟨Nat.zero_le _, fun _ hmem => (nomatch hmem), Nat.zero_le _⟩
    (SearchBody.asks_toRequest {} found)

/-- An odd blank is an empty search on the command line and no body for the gateway. -/
theorem outcomes_ne_of_oddBlank (h : collection ∈ Collection.identifiers) {body : String}
    (hodd : IsOddBlank body) :
    gatewayOutcome collection body ≠ validateText collection body := by
  obtain ⟨fault, hfault⟩ := parse_blank_fault hodd.1
  obtain ⟨search, hsearch⟩ := validate_empty h
  rw [gatewayOutcome_of_not_asciiBlank h hodd.2, validateText_of_blank h hodd.1, parsedOutcome,
    hfault, hsearch]
  exact fun heq => nomatch heq

theorem outcomes_eq_of_not_oddBlank (h : collection ∈ Collection.identifiers) {body : String}
    (hbody : ¬ IsOddBlank body) :
    gatewayOutcome collection body = validateText collection body := by
  by_cases hascii : body.toList.all isAsciiBlank = true
  · rw [gatewayOutcome_of_asciiBlank h hascii,
      validateText_of_blank h (isBlank_of_asciiBlank hascii)]
  · rw [Bool.not_eq_true] at hascii
    have hblank : isBlank body.toList = false := by
      rw [← Bool.not_eq_true]
      exact fun hblank => hbody ⟨hblank, hascii⟩
    rw [gatewayOutcome_of_not_asciiBlank h hascii, validateText_of_not_blank h hblank]

end Supported

/-- The two front ends come to the same outcome, in code and message too, unless a supported
    collection is asked for by an odd blank.  The collection is looked at before the body, and what
    is no body is reported before the caps are looked at. -/
theorem outcomes_eq_iff (collection body : String) :
    (gatewayOutcome collection body = validateText collection body ↔
        (collection ∈ Collection.identifiers → ¬ IsOddBlank body)) ∧
      (collection ∉ Collection.identifiers →
        validateText collection body = .error (.ofQuery (.unsupportedEndpoint collection))) ∧
      (collection ∈ Collection.identifiers → isBlank body.toList = false →
        validateText collection body = parsedOutcome collection body) := by
  refine ⟨⟨fun heq hknown hodd => outcomes_ne_of_oddBlank hknown hodd heq, fun h => ?_⟩,
    fun hunknown => (outcomes_of_unsupported hunknown body).1,
    fun hknown hbody => validateText_of_not_blank hknown hbody⟩
  by_cases hknown : collection ∈ Collection.identifiers
  · exact outcomes_eq_of_not_oddBlank hknown (h hknown)
  · obtain ⟨htext, hgateway⟩ := outcomes_of_unsupported hknown body
    rw [htext, hgateway]

/-- A vertical tab is an empty search of the contacts on the command line, and the gateway refuses
    it. -/
theorem outcomes_of_verticalTab :
    validateText "contacts" "\x0B" =
        .ok ⟨.contacts, none, [], ["email", "firstname", "lastname", "phone", "company"], 10, none⟩ ∧
      gatewayOutcome "contacts" "\x0B" =
        .error ⟨"CRM_GATEWAY_INVALID_BODY", "Invalid request body: expected value"⟩ := by
  decide +kernel

end SearchGateway.CommandLine
