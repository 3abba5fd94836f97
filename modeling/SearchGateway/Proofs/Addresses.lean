/-
  SearchGateway.Proofs.Addresses

  How the text of a web address is read: the front up to the path, the segments of
  the path, and what follows it.
-/
import SearchGateway.Proofs.DotSegments
import SearchGateway.Proofs.Scanning

namespace SearchGateway.Http.Url

open SearchGateway.Text (split trimEnd)

/-! ## What is read of a text -/

/-- A character that is read: tabs and line ends are left out wherever they stand. -/
def isKept (c : Char) : Bool :=
  c != '\t' && c != '\n' && c != '\r'

/-- What is read of a text that ends an address. -/
def readable (cs : List Char) : List Char :=
  (trimEnd isControlOrSpace cs).filter isKept

/-- A character that ends neither a path nor a query. -/
def isInPlace (c : Char) : Bool :=
  c != '?' && c != '#'

/-- The slash for a backslash; other characters as they are. -/
def slashed (c : Char) : Char :=
  if c = '\\' then '/' else c

/-- The path of a text that is read. -/
def placeOf (cs : List Char) : List Char :=
  (cs.takeWhile isInPlace).map slashed

/-- What follows the path of a text that is read. -/
def behindPlace (cs : List Char) : List Char :=
  cs.dropWhile isInPlace

/-- An address with the segments of a path, and with the query and the fragment that follow it. -/
def withSegments (url : Url) (segments : List (List Char)) (behind : List Char) : Url :=
  { url with
    segments
    query := (behind.takeWhile (· != '#')).tail?.map (Text.Percent.encode isPlainInQuery)
    fragment := (behind.dropWhile (· != '#')).tail?.map (Text.Percent.encode isPlainInFragment) }

theorem isKept_of_isControlOrSpace {c : Char} (h : isControlOrSpace c = false) :
    isKept c = true := by
  have hne : c ≠ '\t' ∧ c ≠ '\n' ∧ c ≠ '\r' := by
    refine ⟨?_, ?_, ?_⟩ <;>
    · rintro rfl
      exact absurd h (by decide)
  simp [isKept, hne]

theorem readable_cons {c : Char} (hc : isControlOrSpace c = false) (rest : List Char) :
    readable (c :: rest) = c :: readable rest := by
  have htrim := Text.trimEnd_append_cons hc [] rest
  rw [List.nil_append, List.nil_append] at htrim
  rw [readable, htrim, List.filter_cons_of_pos (isKept_of_isControlOrSpace hc)]
  rfl

theorem readable_append_cons {c : Char} (hc : isControlOrSpace c = false)
    (front rest : List Char) :
    readable (front ++ c :: rest) = front.filter isKept ++ readable (c :: rest) := by
  rw [readable_cons hc, readable, Text.trimEnd_append_cons hc, List.filter_append,
    List.filter_cons_of_pos (isKept_of_isControlOrSpace hc)]
  rfl

theorem cleaned_append_cons {c : Char} (hc : isControlOrSpace c = false)
    (front rest : List Char) :
    cleaned (front ++ c :: rest) =
      (front.dropWhile isControlOrSpace).filter isKept ++ readable (c :: rest) := by
  rw [← readable_append_cons hc, ← Text.dropWhile_append_cons hc]
  rfl

/-! ## The front of an address -/

/-- The front of an address up to its path: a scheme, slashes and an authority.  Backslashes count
    as slashes, and tabs and line ends may stand anywhere. -/
def IsFront (front : List Char) : Prop :=
  ∃ scheme slashes authority, front = scheme ++ ':' :: (slashes ++ authority) ∧ ':' ∉ scheme ∧
    (∀ c ∈ slashes, c = '/' ∨ c = '\\' ∨ isKept c = false) ∧
    (∃ c ∈ authority, isKept c = true) ∧
    ∀ c ∈ authority, c ∉ "/\\?#".toList

/-- The address of a scheme and an authority, without a path. -/
def home? (scheme authority : List Char) : Option Url := do
  let scheme ← Scheme.ofName? scheme
  let (host, port) ← hostPort? scheme (withoutCredentials authority)
  return { scheme, host, port, segments := [], query := none, fragment := none }

/-- The steps of reading an address. -/
theorem ofText?_eq {text rest place : List Char}
    (hrest : ((cleaned text).dropWhile (· != ':')).drop 1 = rest)
    (hplace : (placeOf rest).dropWhile (· == '/') = place) :
    ofText? text =
      (home? ((cleaned text).takeWhile (· != ':')) (place.takeWhile (· != '/'))).map
        (·.withSegments (segmentsOf (place.dropWhile (· != '/'))) (behindPlace rest)) := by
  subst hplace hrest
  simp only [home?, Option.bind_eq_bind, Option.map_bind, Function.comp_def]
  rfl

/-- A front does not end in a slash. -/
theorem IsFront.getLast?_ne {front : List Char} (h : IsFront front) :
    front ≠ [] ∧ ∀ c ∈ front.getLast?, (c == '/') = false := by
  obtain ⟨scheme, slashes, authority, rfl, -, -, ⟨c, hc, -⟩, hauthority⟩ := h
  obtain ⟨init, last, rfl⟩ :=
    (List.eq_nil_or_concat authority).resolve_left (List.ne_nil_of_mem hc)
  have hassoc : scheme ++ ':' :: (slashes ++ (init ++ [last])) =
      (scheme ++ ':' :: (slashes ++ init)) ++ [last] := by simp
  rw [List.concat_eq_append] at hauthority ⊢
  refine ⟨by simp, fun d hd => ?_⟩
  rw [hassoc, List.getLast?_concat] at hd
  obtain rfl := Option.some.inj hd
  rw [beq_eq_false_iff_ne]
  rintro rfl
  exact hauthority _ (List.mem_append_right _ List.mem_cons_self) (by decide)

theorem ofText?_of_cleaned {text scheme slashes authority place : List Char}
    (htext : cleaned text = scheme ++ ':' :: (slashes ++ (authority ++ '/' :: place)))
    (hscheme : ':' ∉ scheme) (hslashes : ∀ c ∈ slashes, c = '/' ∨ c = '\\')
    (hne : authority ≠ []) (hauthority : ∀ c ∈ authority, c ∉ "/\\?#".toList) :
    ofText? text = (home? scheme authority).map
      (·.withSegments (segmentsOf (placeOf ('/' :: place))) (behindPlace ('/' :: place))) := by
  have hcolon : ∀ c ∈ scheme, (c != ':') = true := by
    intro c hc
    rw [bne_iff_ne]
    rintro rfl
    exact hscheme hc
  have hrest : ((cleaned text).dropWhile (· != ':')).drop 1 =
      slashes ++ (authority ++ '/' :: place) := by
    rw [htext, Text.dropWhile_run hcolon (by decide)]
    rfl
  -- no character before the path ends the place, and none of the authority is a slash
  have hslashesPlace : ∀ c ∈ slashes, isInPlace c = true := by
    intro c hc
    rcases hslashes c hc with rfl | rfl <;> decide
  have hauthorityPlace : ∀ c ∈ authority, isInPlace c = true := by
    intro c hc
    have hmark := hauthority c hc
    simp at hmark
    simp [isInPlace, hmark]
  have hauthoritySlash : ∀ c ∈ authority, (c != '/') = true := by
    intro c hc
    rw [bne_iff_ne]
    rintro rfl
    exact hauthority _ hc (by decide)
  have hauthoritySlashed : authority.map slashed = authority := by
    refine (List.map_congr_left fun c hc => ?_).trans (List.map_id _)
    rw [slashed, if_neg (by rintro rfl; exact hauthority _ hc (by decide))]
    rfl
  -- the slashes go first, and the authority ends where the path begins
  have hplace : (placeOf (slashes ++ (authority ++ '/' :: place))).dropWhile (· == '/') =
      authority ++ placeOf ('/' :: place) := by
    have hmapped : ∀ c ∈ slashes.map slashed, (c == '/') = true := by
      intro c hc
      obtain ⟨d, hd, rfl⟩ := List.mem_map.mp hc
      rcases hslashes d hd with rfl | rfl <;> decide
    rw [placeOf, List.takeWhile_append_of_pos hslashesPlace,
      List.takeWhile_append_of_pos hauthorityPlace, List.map_append, List.map_append,
      hauthoritySlashed, List.dropWhile_append_of_pos hmapped]
    refine Text.dropWhile_eq_self fun c hc => ?_
    obtain ⟨d, more, rfl⟩ := List.exists_cons_of_ne_nil hne
    obtain rfl := Option.some.inj hc
    simpa using hauthoritySlash d List.mem_cons_self
  obtain ⟨path, hpath⟩ : ∃ path, placeOf ('/' :: place) = '/' :: path := ⟨_, rfl⟩
  rw [ofText?_eq hrest hplace, hpath, htext, Text.takeWhile_run hcolon (by decide),
    Text.takeWhile_run hauthoritySlash (by decide), Text.dropWhile_run hauthoritySlash (by decide),
    behindPlace, List.dropWhile_append_of_pos hslashesPlace,
    List.dropWhile_append_of_pos hauthorityPlace]
  rfl

theorem exists_home {front : List Char} (h : IsFront front) :
    ∃ home : Option Url, ∀ place,
      ofText? (front ++ '/' :: place) = home.map
        (·.withSegments (segmentsOf (placeOf (readable ('/' :: place))))
          (behindPlace (readable ('/' :: place)))) := by
  -- what is left of a front without tabs and line ends has the parts of a front
  obtain ⟨scheme, slashes, authority, rfl, hscheme, hslashes, ⟨c, hc, hkept⟩, hauthority⟩ := h
  have hcolon : isControlOrSpace ':' = false := by decide
  have hslash : isControlOrSpace '/' = false := by decide
  refine ⟨home? ((scheme.dropWhile isControlOrSpace).filter isKept) (authority.filter isKept),
    fun place => ?_⟩
  rw [readable_cons hslash]
  refine @ofText?_of_cleaned _ _ (slashes.filter isKept) _ _ ?_ ?_ ?_ ?_ ?_
  · rw [cleaned_append_cons hslash, readable_cons hslash, Text.dropWhile_append_cons hcolon,
      List.filter_append, List.filter_cons_of_pos (by decide), List.filter_append]
    simp only [List.append_assoc, List.cons_append]
  · intro hmem
    exact hscheme ((List.dropWhile_suffix _).subset (List.mem_filter.mp hmem).1)
  · intro d hd
    obtain ⟨hmem, hd⟩ := List.mem_filter.mp hd
    rcases hslashes d hmem with h | h | h
    · exact .inl h
    · exact .inr h
    · exact nomatch h.symm.trans hd
  · exact List.ne_nil_of_mem (List.mem_filter.mpr ⟨hc, hkept⟩)
  · intro d hd
    exact hauthority d (List.mem_filter.mp hd).1

/-- Only the path, the query and the fragment depend on what follows a front. -/
theorem ofText?_append {front : List Char} (h : IsFront front) (place : List Char) :
    ofText? (front ++ '/' :: place) = (ofText? (front ++ ['/'])).map
      (·.withSegments (segmentsOf (placeOf (readable ('/' :: place))))
          (behindPlace (readable ('/' :: place)))) := by
  obtain ⟨home, hhome⟩ := exists_home h
  rw [hhome, hhome, Option.map_map]
  rfl

/-! ## Segments that stay as they are -/

/-- A segment that is read as it is written. -/
structure IsPlain (segment : List Char) : Prop where
  chars : ∀ c ∈ segment, isPlainInPath c = true ∧ c ≠ '/' ∧ c ≠ '\\'
  single : isSingleDot segment = false
  double : isDoubleDot segment = false

theorem isControlOrSpace_of_isPlainInPath {c : Char} (h : isPlainInPath c = true) :
    isControlOrSpace c = false := by
  simp only [isPlainInPath, isPlainInFragment, isVisible, Bool.and_eq_true, decide_eq_true_eq] at h
  rw [isControlOrSpace, decide_eq_false_iff_not]
  omega

theorem isInPlace_of_isPlainInPath {c : Char} (h : isPlainInPath c = true) :
    isInPlace c = true := by
  have hne : c ≠ '?' ∧ c ≠ '#' := by
    constructor <;>
    · rintro rfl
      exact absurd h (by decide)
  simp [isInPlace, hne]

theorem encode_eq_self {segment : List Char} (h : ∀ c ∈ segment, isPlainInPath c = true) :
    Text.Percent.encode isPlainInPath segment = segment := by
  induction segment with
  | nil => rfl
  | cons c segment ih =>
    rw [List.forall_mem_cons] at h
    rw [Text.Percent.encode, List.flatMap_cons, if_pos h.1, List.singleton_append]
    congr 1
    exact ih h.2

theorem IsPlain.encode {segment : List Char} (h : IsPlain segment) :
    Text.Percent.encode isPlainInPath segment = segment :=
  encode_eq_self fun c hc => (h.chars c hc).1

/-- A character of a simple name: an ASCII letter or digit, a hyphen or an underscore. -/
def isNameChar (c : Char) : Bool :=
  ('A' ≤ c && c ≤ 'Z') || ('a' ≤ c && c ≤ 'z') || ('0' ≤ c && c ≤ '9') || c == '-' || c == '_'

theorem plain_of_isNameChar {c : Char} (h : isNameChar c = true) :
    isPlainInPath c = true ∧ c ∉ "/\\.%".toList := by
  have hascii : c.toNat < 0x80 := by
    simp only [isNameChar, Bool.or_eq_true, Bool.and_eq_true, decide_eq_true_eq, beq_iff_eq,
      Char.le_def, UInt32.le_iff_toNat_le] at h
    show c.val.toNat < 0x80
    rcases h with ((((⟨-, h⟩ | ⟨-, h⟩) | ⟨-, h⟩) | rfl) | rfl)
    · exact Nat.lt_of_le_of_lt h (by decide)
    · exact Nat.lt_of_le_of_lt h (by decide)
    · exact Nat.lt_of_le_of_lt h (by decide)
    · decide
    · decide
  have hplain : isNameChar c = true → isPlainInPath c = true ∧ c ∉ "/\\.%".toList :=
    Text.Utf8.of_ascii hascii (by decide)
  exact hplain h

/-- A simple name is a plain segment. -/
theorem isPlain_of_isNameChar {segment : List Char} (hall : segment.all isNameChar = true) :
    IsPlain segment := by
  have h : ∀ c ∈ segment, isNameChar c = true := List.all_eq_true.mp hall
  have hfree : Text.Percent.EscapeFree segment := by
    intro high low _ _ hescape
    have hpercent := hescape.subset List.mem_cons_self
    exact (plain_of_isNameChar (h _ hpercent)).2 (by decide)
  have hdot : '.' ∉ segment := fun hmem => (plain_of_isNameChar (h _ hmem)).2 (by decide)
  have hdots := isDot_encode_eq_false hfree (by rintro rfl; exact hdot List.mem_cons_self)
    (by rintro rfl; exact hdot List.mem_cons_self)
  rw [encode_eq_self fun c hc => (plain_of_isNameChar (h c hc)).1] at hdots
  refine ⟨fun c hc => ?_, hdots.1, hdots.2⟩
  obtain ⟨hplain, hother⟩ := plain_of_isNameChar (h c hc)
  refine ⟨hplain, ?_, ?_⟩
  · rintro rfl
    exact hother (by decide)
  · rintro rfl
    exact hother (by decide)

/-- Plain segments are read as they are written, whatever follows them. -/
theorem readable_path {segments : List (List Char)} (h : ∀ segment ∈ segments, IsPlain segment)
    (rest : List Char) :
    readable (segments.flatMap ('/' :: ·) ++ '/' :: rest) =
      segments.flatMap ('/' :: ·) ++ '/' :: readable rest := by
  have hslash : isControlOrSpace '/' = false := by decide
  rw [readable_append_cons hslash, readable_cons hslash]
  congr 1
  refine List.filter_eq_self.mpr fun c hc => ?_
  obtain ⟨segment, hsegment, hmem⟩ := List.mem_flatMap.mp hc
  rcases List.mem_cons.mp hmem with rfl | hmem
  · decide
  · have hplain := ((h segment hsegment).chars c hmem).1
    exact isKept_of_isControlOrSpace (isControlOrSpace_of_isPlainInPath hplain)

theorem placeOf_path {segments : List (List Char)} (h : ∀ segment ∈ segments, IsPlain segment)
    (rest : List Char) :
    placeOf (segments.flatMap ('/' :: ·) ++ '/' :: rest) =
      segments.flatMap ('/' :: ·) ++ '/' :: placeOf rest ∧
    behindPlace (segments.flatMap ('/' :: ·) ++ '/' :: rest) = behindPlace rest := by
  have hpath : ∀ c ∈ segments.flatMap ('/' :: ·), isInPlace c = true ∧ slashed c = c := by
    intro c hc
    obtain ⟨segment, hsegment, hmem⟩ := List.mem_flatMap.mp hc
    rcases List.mem_cons.mp hmem with rfl | hmem
    · decide
    · obtain ⟨hplain, -, hbackslash⟩ := (h segment hsegment).chars c hmem
      exact ⟨isInPlace_of_isPlainInPath hplain, if_neg hbackslash⟩
  have hplace : ∀ c ∈ segments.flatMap ('/' :: ·), isInPlace c = true := fun c hc => (hpath c hc).1
  constructor
  · rw [placeOf, List.takeWhile_append_of_pos hplace, List.takeWhile_cons_of_pos (by decide),
      List.map_append]
    congr 1
    exact (List.map_congr_left fun c hc => (hpath c hc).2).trans (List.map_id _)
  · rw [behindPlace, List.dropWhile_append_of_pos hplace, List.dropWhile_cons_of_pos (by decide)]
    rfl

/-! ## The address of plain segments -/

theorem segmentsOf_path {segments : List (List Char)} (h : ∀ segment ∈ segments, IsPlain segment)
    (rest : List Char) :
    segmentsOf (segments.flatMap ('/' :: ·) ++ '/' :: rest) =
      resolve segments.reverse ((split '/' rest).map (Text.Percent.encode isPlainInPath)) := by
  have hslash : ∀ segment ∈ segments, '/' ∉ segment := fun segment hsegment hmem =>
    ((h segment hsegment).chars '/' hmem).2.1 rfl
  have hencode : segments.map (Text.Percent.encode isPlainInPath) = segments :=
    (List.map_congr_left fun segment hsegment => (h segment hsegment).encode).trans (List.map_id _)
  have hdots : ∀ segment ∈ segments, isSingleDot segment = false ∧ isDoubleDot segment = false :=
    fun segment hsegment => ⟨(h segment hsegment).single, (h segment hsegment).double⟩
  rw [segmentsOf, Text.split_flatMap hslash, List.map_append, hencode,
    resolve_append hdots (by simpa using Text.split_ne_nil '/' rest), List.append_nil]

/-- An address whose path begins with plain segments: what follows them is read on its own. -/
theorem ofText?_path {front : List Char} (hfront : IsFront front) {segments : List (List Char)}
    (hsegments : ∀ segment ∈ segments, IsPlain segment) (rest : List Char) :
    ofText? (front ++ (segments.flatMap ('/' :: ·) ++ '/' :: rest)) =
      (ofText? (front ++ ['/'])).map (·.withSegments
        (resolve segments.reverse
          ((split '/' (placeOf (readable rest))).map (Text.Percent.encode isPlainInPath)))
        (behindPlace (readable rest))) := by
  obtain ⟨place, hplace⟩ :
      ∃ place, segments.flatMap ('/' :: ·) ++ '/' :: rest = '/' :: place := by
    cases segments with
    | nil => exact ⟨_, rfl⟩
    | cons segment segments => exact ⟨_, rfl⟩
  obtain ⟨hpath, hbehind⟩ := placeOf_path hsegments (readable rest)
  rw [hplace, ofText?_append hfront, ← hplace, readable_path hsegments, hpath, hbehind,
    segmentsOf_path hsegments]

/-! ## Texts that are read as they are -/

/-- A text without characters that are left out, that end a path or that are changed, and without a
    control character or a space at its end. -/
structure IsClean (cs : List Char) : Prop where
  chars : ∀ c ∈ cs, isKept c = true ∧ isInPlace c = true ∧ c ≠ '\\'
  last : ∀ c ∈ cs.getLast?, isControlOrSpace c = false

namespace IsClean

variable {cs : List Char}

theorem readable_eq (h : IsClean cs) : readable cs = cs := by
  rw [readable, Text.trimEnd_eq_self h.last]
  exact List.filter_eq_self.mpr fun c hc => (h.chars c hc).1

theorem behindPlace_eq (h : IsClean cs) : behindPlace cs = [] := by
  rw [behindPlace, ← List.append_nil cs,
    List.dropWhile_append_of_pos fun c hc => (h.chars c hc).2.1]
  rfl

theorem placeOf_eq (h : IsClean cs) : placeOf cs = cs := by
  have htake : cs.takeWhile isInPlace ++ behindPlace cs = cs := List.takeWhile_append_dropWhile
  rw [h.behindPlace_eq, List.append_nil] at htake
  rw [placeOf, htake]
  exact (List.map_congr_left fun c hc => if_neg (h.chars c hc).2.2).trans (List.map_id _)

end IsClean

theorem IsPlain.isClean {segment : List Char} (h : IsPlain segment) : IsClean segment where
  chars c hc := by
    obtain ⟨hplain, -, hbackslash⟩ := h.chars c hc
    exact ⟨isKept_of_isControlOrSpace (isControlOrSpace_of_isPlainInPath hplain),
      isInPlace_of_isPlainInPath hplain, hbackslash⟩
  last c hc := isControlOrSpace_of_isPlainInPath (h.chars c (List.mem_of_getLast? hc)).1

/-- A path of plain segments is read as it is written. -/
theorem ofText?_plain {front : List Char} (hfront : IsFront front) {segments : List (List Char)}
    (hsegments : ∀ segment ∈ segments, IsPlain segment) {last : List Char} (hlast : IsPlain last) :
    ofText? (front ++ (segments.flatMap ('/' :: ·) ++ '/' :: last)) =
      (ofText? (front ++ ['/'])).map (·.withSegments (segments ++ [last]) []) := by
  have hslash : '/' ∉ last := fun hmem => (hlast.chars '/' hmem).2.1 rfl
  rw [ofText?_path hfront hsegments, hlast.isClean.readable_eq, hlast.isClean.placeOf_eq,
    hlast.isClean.behindPlace_eq, Text.split_of_notMem hslash, List.map_singleton, hlast.encode,
    resolve_eq_self (List.forall_mem_singleton.mpr ⟨hlast.single, hlast.double⟩),
    List.reverse_reverse]

theorem length_placeOf_le (cs : List Char) : (placeOf cs).length ≤ cs.length := by
  rw [placeOf, List.length_map]
  exact (List.takeWhile_prefix isInPlace).length_le

theorem length_readable_le (cs : List Char) :
    (readable cs).length ≤ (trimEnd isControlOrSpace cs).length :=
  List.length_filter_le _ _

theorem length_place_le (cs : List Char) : (placeOf (readable cs)).length ≤ cs.length :=
  calc
    _ ≤ (readable cs).length := length_placeOf_le _
    _ ≤ (trimEnd isControlOrSpace cs).length := length_readable_le cs
    _ ≤ cs.length := (Text.trimEnd_isPrefix isControlOrSpace cs).length_le

/-- Only a clean text is read as it is. -/
theorem isClean_of_placeOf {cs : List Char} (h : placeOf (readable cs) = cs) : IsClean cs where
  chars c hc := by
    rw [← h] at hc
    obtain ⟨d, hd, rfl⟩ := List.mem_map.mp hc
    have hplace : isInPlace d = true := List.all_eq_true.mp List.all_takeWhile d hd
    have hread : d ∈ readable cs := (List.takeWhile_prefix isInPlace).subset hd
    have hkept : isKept d = true := (List.mem_filter.mp hread).2
    by_cases hslash : d = '\\'
    · subst hslash
      decide
    · rw [slashed, if_neg hslash]
      exact ⟨hkept, hplace, hslash⟩
  last := by
    -- nothing is cut off at the end, because the text does not get shorter
    have hle : cs.length ≤ (trimEnd isControlOrSpace cs).length := by
      calc
        cs.length = (placeOf (readable cs)).length := by rw [h]
        _ ≤ (readable cs).length := length_placeOf_le _
        _ ≤ (trimEnd isControlOrSpace cs).length := length_readable_le cs
    exact Text.eq_false_of_trimEnd
      ((Text.trimEnd_isPrefix isControlOrSpace cs).eq_of_length_le hle)

end SearchGateway.Http.Url
