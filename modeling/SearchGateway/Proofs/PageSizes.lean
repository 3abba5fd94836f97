/-
  SearchGateway.Proofs.PageSizes

  Which page a caller gets who writes an integer.  Query text and structured bodies agree on the
  integers of 64 bits.  Beyond them a directive counts for nothing, and a body is refused.
-/
import SearchGateway.Proofs.Answers
import SearchGateway.Proofs.BodyEdits
import SearchGateway.Proofs.Directives
import SearchGateway.Proofs.IntegerText

namespace SearchGateway.Query

open SearchGateway.Json
open SearchGateway.Text
open SearchGateway.Text.Utf8 (encode)

/-! ## Bodies -/

/-- The text of a body whose only member is a limit; there may be blanks between the parts. -/
def IsLimitBody (bytes text : List UInt8) : Prop :=
  ∃ (before behind gap : Blanks) (m : Member),
    bytes = before.val ++ (objectText gap [m] ++ behind.val) ∧ IsStringBody m.key.text ∧
      Names m.key.text (some "limit") ∧ m.value.text = text

/-- A body with a limit of 64 bits holds it, and one with any other integer is refused. -/
theorem toOption_parse_limit {bytes : List UInt8} {text : String} {n : Int} (h : IsDecimal text n)
    (hbytes : IsLimitBody bytes (encode text.toList)) :
    (SearchBody.parse bytes).toOption =
      if IsInt64 n then some { limit := some n } else none := by
  obtain ⟨before, behind, gap, m, rfl, hkey, hname, hvalue⟩ := hbytes
  have hm : m.WellFormed := ⟨hkey, hvalue ▸ h.isValue⟩
  let set (limit : Option Int) (body : SearchBody) : SearchBody := { body with limit }
  let field : Json.Field SearchBody := .optional "limit" (fun _ => Json.optional int64) set
  have hfield : SearchBody.shape.field? "limit" = some field := rfl
  have hset : Settles (field.read 126) m.value.text
      (((if IsInt64 n then some n else none).map some).map set) := by
    rw [hvalue]
    exact Field.settles_optional (h.settles_int64.optional h.isValue h.ne_null)
  have hread {effect : Effect SearchBody} (heffect : SearchBody.shape.HasEffect 126 m effect) :
      (SearchBody.parse (before.val ++ (objectText gap [m] ++ behind.val))).toOption =
        SearchBody.shape.gather [effect] [] {} :=
    (Shape.settles_read (.cons heffect .nil) (List.forall_mem_singleton.mpr hm) gap).toOption_read
      before behind
  split
  · rename_i hfits
    rw [if_pos hfits] at hset
    exact hread (.known hname hfield hset)
  · rename_i hfar
    rw [if_neg hfar] at hset
    exact hread (.refused hname hfield hset)

/-! ## Query text -/

/-- What a keyword comes to in a text: the integer that its first directive writes, when that fits
    into 64 bits.  No later directive stands in for the first one, and none begins within a word. -/
structure Directed (keyword raw : String) (value : Option Int) : Prop where
  given : ∀ m, value = some m ↔ ∃ before text,
    FirstDirective keyword raw.toList before text ∧ WritesInteger text m ∧ IsInt64 m
  not_replaced : ∀ before text, FirstDirective keyword raw.toList before text →
    (∀ m, WritesInteger text m → ¬ IsInt64 m) → value = none
  not_within_word : (∀ before behind, raw.toList = before ++ (keyword.toList ++ ':' :: behind) →
    ¬ EndsOutside before) → value = none

theorem directed_directive? (keyword raw : String) :
    Directed keyword raw (directive? keyword raw) where
  given _ := directive?_eq_some_iff
  not_replaced before text hfirst hfar := by
    refine Option.eq_none_iff_forall_ne_some.mpr fun m hm => ?_
    rw [directive?_of_first hfirst] at hm
    obtain ⟨gap, behind, -, -, -, htext, -⟩ := hfirst.here
    obtain ⟨hwrites, hfits⟩ := (int64OfText?_eq_some_iff htext).mp hm
    exact hfar m hwrites hfits
  not_within_word hwithin := by
    refine Option.eq_none_iff_forall_ne_some.mpr fun m hm => ?_
    obtain ⟨before, text, hfirst, -⟩ := directive?_eq_some_iff.mp hm
    obtain ⟨gap, behind, heq, hbefore, -⟩ := hfirst.here
    exact hwithin before _ heq hbefore

/-- A keyword in front of the decimal text of an integer gives that integer. -/
theorem directive?_of_isDecimal {keyword : String} {k : Char} {ks : List Char}
    (hkeyword : keyword.toList ++ [':'] = k :: ks) (hk : k ∉ ks) {text : String} {n : Int}
    (h : IsDecimal text n) {before gap behind : List Char} (hbefore : EndsOutside before)
    (hgap : Text.isBlank gap = true) (hbehind : PastDigits behind)
    (hclear : ¬ keyword.toList ++ [':'] <:+: before) :
    directive? keyword (String.ofList (before ++ directiveChars keyword gap text.toList behind)) =
      if IsInt64 n then some n else none := by
  have hwrites := writesInteger_of_isDecimal h
  have hfirst := firstDirective_of_not_infix hkeyword hk hbefore hclear hgap hwrites.isIntegerText
    hbehind
  rw [← String.toList_ofList (l := before ++ _)] at hfirst
  exact directive?_of_writes hfirst hwrites

end SearchGateway.Query

namespace SearchGateway.Gateway

open SearchGateway.Json
open SearchGateway.Query
open SearchGateway.Text
open SearchGateway.Text.Utf8 (encode)

/-! ## Pages -/

/-- A body with a limit is no whitespace. -/
theorem shown_of_isLimitBody {bytes text : List UInt8} (h : IsLimitBody bytes text) :
    bytes.all isAsciiSpace = false := by
  obtain ⟨before, behind, gap, m, rfl, -⟩ := h
  exact all_isAsciiSpace_object before behind gap [m]

/-- A body with a limit of 64 bits asks for a page of that size, or of 200 items when it is above. -/
theorem validateBody_limit {bytes : List UInt8} {text : String} {n : Int} (h : IsDecimal text n)
    (hbytes : IsLimitBody bytes (encode text.toList)) (hfits : IsInt64 n) {endpoint : String}
    (hknown : endpoint ∈ Collection.identifiers) :
    ∃ search, validateBody endpoint bytes = .ok search ∧ search.request.limit = min n 200 := by
  have hparse := toOption_parse_limit h hbytes
  rw [if_pos hfits, toOption_eq_some_iff] at hparse
  have hread := parseSearchBody_eq_ok_iff.mpr (.parsed (shown_of_isLimitBody hbytes) hparse)
  obtain ⟨collection, hid⟩ := exists_id_of_mem hknown
  let search : Search := ⟨collection, SearchBody.toRequest { limit := some n } collection⟩
  have hvalid : validate endpoint { limit := some n } = .ok search :=
    validate_eq_ok_iff.mpr ⟨resolveCollection_eq_ok_iff.mpr hid, rfl, rfl⟩
  refine ⟨search, ?_, rfl⟩
  rw [validateBody_of_known hknown, hread]
  show (validate endpoint { limit := some n }).mapError GatewayError.query = .ok search
  rw [hvalid]
  rfl

/-- A body with a limit beyond 64 bits is refused as one that does not parse. -/
theorem validateBody_limit_refused {bytes : List UInt8} {text : String} {n : Int}
    (h : IsDecimal text n) (hbytes : IsLimitBody bytes (encode text.toList)) (hfar : ¬ IsInt64 n)
    {endpoint : String} (hknown : endpoint ∈ Collection.identifiers) :
    ∃ fault, SearchBody.parse bytes = .error fault ∧
      validateBody endpoint bytes = .error (invalidBody fault) := by
  have hparse := toOption_parse_limit h hbytes
  rw [if_neg hfar, toOption_eq_none_iff] at hparse
  obtain ⟨fault, hfault⟩ := hparse
  have hread : parseSearchBody bytes = .error (invalidBody fault) := by
    rw [parseSearchBody, shown_of_isLimitBody hbytes, hfault]
    rfl
  refine ⟨fault, hfault, ?_⟩
  rw [validateBody_of_known hknown, hread]

/-- The page that an integer asks for.  In query text, behind text without the keyword, the integer
    counts when it fits into 64 bits; in a body it has to fit.  Either way a size above 200 is
    lowered.  In any query text the keywords come to their first directives. -/
theorem page_of_isDecimal {text : String} {n : Int} (h : IsDecimal text n) :
    (∀ before gap behind : List Char, EndsOutside before → Text.isBlank gap = true →
      PastDigits behind →
        (¬ "limit:".toList <:+: before →
          (Pagination.ofText <| String.ofList <|
              before ++ directiveChars "limit" gap text.toList behind).limit =
            if IsInt64 n then min n 200 else 10) ∧
        (¬ "offset:".toList <:+: before →
          (Pagination.ofText <| String.ofList <|
              before ++ directiveChars "offset" gap text.toList behind).after =
            if IsInt64 n then some text else none)) ∧
      (∀ bytes, IsLimitBody bytes (encode text.toList) →
        ∀ endpoint ∈ Collection.identifiers,
          (IsInt64 n → ∃ search, validateBody endpoint bytes = .ok search ∧
            search.request.limit = min n 200) ∧
          (¬ IsInt64 n → ∃ fault, SearchBody.parse bytes = .error fault ∧
            validateBody endpoint bytes = .error (invalidBody fault))) ∧
      ∀ raw, ∃ size start, Directed "limit" raw size ∧ Directed "offset" raw start ∧
        (Pagination.ofText raw).limit = min (size.getD 10) 200 ∧
        (Pagination.ofText raw).after = start.map fun m => String.ofList (intText m) := by
  refine ⟨fun before gap behind hbefore hgap hbehind => ⟨fun hclear => ?_, fun hclear => ?_⟩,
    fun bytes hbytes endpoint hknown => ⟨fun hfits => ?_, fun hfar => ?_⟩, fun raw => ?_⟩
  · have hkeyword : "limit".toList ++ [':'] = 'l' :: "imit:".toList := rfl
    have hvalue := directive?_of_isDecimal hkeyword (by decide) h hbefore hgap hbehind hclear
    rw [Pagination.ofText, hvalue]
    split <;> rfl
  · have hkeyword : "offset".toList ++ [':'] = 'o' :: "ffset:".toList := rfl
    have hvalue := directive?_of_isDecimal hkeyword (by decide) h hbefore hgap hbehind hclear
    rw [Pagination.ofText, hvalue, isDecimal_iff.mp h]
    split <;> rfl
  · exact validateBody_limit h hbytes hfits hknown
  · exact validateBody_limit_refused h hbytes hfar hknown
  · exact ⟨directive? "limit" raw, directive? "offset" raw, directed_directive? "limit" raw,
      directed_directive? "offset" raw, rfl, rfl⟩

/-- The least integer beyond 64 bits is no page size: the default stands, although a size follows
    that would do, and a body with it is refused. -/
theorem page_of_isDecimal_beyond :
    IsDecimal "9223372036854775808" 9223372036854775808 ∧
      (Pagination.ofText "deals limit: 9223372036854775808 limit: 5").limit = 10 ∧
      ∃ fault, validateBody "deals" (Text.Utf8.ofString "\x7b\"limit\": 9223372036854775808\x7d") =
        .error (invalidBody fault) := by
  have h : IsDecimal "9223372036854775808" 9223372036854775808 :=
    isDecimal_iff.mpr (by decide +kernel)
  have hfar : ¬ IsInt64 9223372036854775808 := by decide
  obtain ⟨htext, hbody, -⟩ := page_of_isDecimal h
  refine ⟨h, ?_, ?_⟩
  · have hbefore : EndsOutside "deals ".toList := by
      intro c hc
      obtain rfl : ' ' = c := Option.some.inj hc
      decide
    have hbehind : Query.PastDigits " limit: 5".toList := by
      intro c hc
      obtain rfl : ' ' = c := Option.some.inj hc
      decide
    have hlimit := (htext "deals ".toList [' '] " limit: 5".toList hbefore (by decide) hbehind).1
      (by decide)
    rwa [if_neg hfar] at hlimit
  · let space : Blanks := ⟨[0x20], by decide +kernel⟩
    let limit : Member := ⟨⟨.none, wordText "limit", .none⟩,
      ⟨space, encode "9223372036854775808".toList, .none⟩⟩
    have hplain : IsUnescaped "limit" := by decide +kernel
    have hbytes : IsLimitBody (Text.Utf8.ofString "\x7b\"limit\": 9223372036854775808\x7d")
        (encode "9223372036854775808".toList) :=
      ⟨.none, .none, .none, limit, by decide +kernel, hplain.isStringBody, hplain.names, rfl⟩
    obtain ⟨fault, -, hrefused⟩ := (hbody _ hbytes "deals" (by decide)).2 hfar
    exact ⟨fault, hrefused⟩

end SearchGateway.Gateway
