/-
  SearchGateway.Proofs.DotSegments

  Paths with dot segments: what resolving them leaves of a path, and which names
  become dot segments when they are escaped.
-/
import SearchGateway.Http.Url
import SearchGateway.Proofs.Percent

namespace SearchGateway.Http.Url

/-! ## Resolving -/

/-- Segments without dots are put behind the ones that are there. -/
theorem resolve_append {front pieces : List (List Char)}
    (h : ∀ piece ∈ front, isSingleDot piece = false ∧ isDoubleDot piece = false)
    (hne : pieces ≠ []) (done : List (List Char)) :
    resolve done (front ++ pieces) = resolve (front.reverse ++ done) pieces := by
  induction front generalizing done with
  | nil => rfl
  | cons piece front ih =>
    rw [List.forall_mem_cons] at h
    -- something follows the segment, so it is not treated as the last one
    obtain ⟨next, rest, hrest⟩ := List.exists_cons_of_ne_nil
      (List.append_ne_nil_of_right_ne_nil front hne)
    rw [List.cons_append, hrest, resolve, if_neg (by simp [h.1.2]), if_neg (by simp [h.1.1]),
      ← hrest, ih h.2, List.reverse_cons, List.append_assoc, List.singleton_append]

/-- A path without dot segments is what it was. -/
theorem resolve_eq_self {pieces : List (List Char)}
    (h : ∀ piece ∈ pieces, isSingleDot piece = false ∧ isDoubleDot piece = false)
    (done : List (List Char)) : resolve done pieces = done.reverse ++ pieces := by
  rcases List.eq_nil_or_concat pieces with rfl | ⟨front, last, rfl⟩
  · rw [resolve, List.append_nil]
  · rw [List.concat_eq_append] at h ⊢
    rw [List.forall_mem_append, List.forall_mem_singleton] at h
    rw [resolve_append h.1 (List.cons_ne_nil last []), resolve, if_neg (by simp [h.2.2]),
      if_neg (by simp [h.2.1])]
    simp

theorem above_suffix (done : List (List Char)) : above done <:+ done := by
  cases done with
  | nil => exact List.suffix_refl []
  | cons segment rest =>
    rw [above]
    split
    · exact List.suffix_refl _
    · exact List.suffix_cons segment rest

/-- Resolving keeps a beginning of the segments that are there and puts some of the pieces behind
    it, and an empty one at the end if the last piece is a dot segment. -/
theorem resolve_eq_append {pieces : List (List Char)} (hne : pieces ≠ []) (done : List (List Char))
    (hlast : (resolve done pieces).getLast? ≠ some []) :
    ∃ kept pushed, resolve done pieces = kept ++ pushed ∧ kept <+: done.reverse ∧
      pushed.Sublist pieces := by
  fun_induction resolve done pieces with
  | case1 => exact absurd rfl hne
  | case2 done last hdouble =>
    rw [List.getLast?_reverse] at hlast
    exact absurd rfl hlast
  | case3 done last _ hsingle =>
    rw [List.getLast?_reverse] at hlast
    exact absurd rfl hlast
  | case4 done last =>
    exact ⟨done.reverse, [last], List.reverse_cons, List.prefix_refl _, List.Sublist.refl _⟩
  | case5 done segment next rest hdouble ih =>
    obtain ⟨kept, pushed, heq, hkept, hpushed⟩ := ih (List.cons_ne_nil next rest) hlast
    exact ⟨kept, pushed, heq, hkept.trans (List.reverse_prefix.mpr (above_suffix done)),
      hpushed.cons segment⟩
  | case6 done segment next rest _ hsingle ih =>
    obtain ⟨kept, pushed, heq, hkept, hpushed⟩ := ih (List.cons_ne_nil next rest) hlast
    exact ⟨kept, pushed, heq, hkept, hpushed.cons segment⟩
  | case7 done segment next rest _ _ ih =>
    obtain ⟨kept, pushed, heq, hkept, hpushed⟩ := ih (List.cons_ne_nil next rest) hlast
    rw [List.reverse_cons] at hkept
    -- the segment is kept and belongs to the pieces, or it is taken back later
    rcases List.prefix_concat_iff.mp hkept with rfl | hkept
    · refine ⟨done.reverse, segment :: pushed, ?_, List.prefix_refl _, hpushed.cons_cons segment⟩
      rw [heq, List.append_assoc, List.singleton_append]
    · exact ⟨kept, pushed, heq, hkept, hpushed.cons segment⟩

/-- Resolving makes no segments besides empty ones. -/
theorem mem_of_mem_resolve {pieces done : List (List Char)} {segment : List Char}
    (h : segment ∈ resolve done pieces) : segment ∈ done ∨ segment ∈ pieces ∨ segment = [] := by
  fun_induction resolve done pieces with
  | case1 => exact .inl (List.mem_reverse.mp h)
  | case2 done last _ =>
    rcases List.mem_cons.mp (List.mem_reverse.mp h) with rfl | h
    · exact .inr (.inr rfl)
    · exact .inl ((above_suffix done).subset h)
  | case3 done last _ _ =>
    rcases List.mem_cons.mp (List.mem_reverse.mp h) with rfl | h
    · exact .inr (.inr rfl)
    · exact .inl h
  | case4 done last =>
    rcases List.mem_cons.mp (List.mem_reverse.mp h) with rfl | h
    · exact .inr (.inl List.mem_cons_self)
    · exact .inl h
  | case5 done piece next rest _ ih =>
    rcases ih h with h | h | h
    · exact .inl ((above_suffix done).subset h)
    · exact .inr (.inl (List.mem_cons_of_mem piece h))
    · exact .inr (.inr h)
  | case6 done piece next rest _ _ ih =>
    rcases ih h with h | h | h
    · exact .inl h
    · exact .inr (.inl (List.mem_cons_of_mem piece h))
    · exact .inr (.inr h)
  | case7 done piece next rest _ _ ih =>
    rcases ih h with h | h | h
    · rcases List.mem_cons.mp h with rfl | h
      · exact .inr (.inl List.mem_cons_self)
      · exact .inl h
    · exact .inr (.inl (List.mem_cons_of_mem piece h))
    · exact .inr (.inr h)

/-- Two segments at the end of a path whose beginning is still there are pieces of it. -/
theorem pair_sublist_of_resolve {pieces done : List (List Char)} {first second : List Char}
    (hne : pieces ≠ []) (hsecond : second ≠ [])
    (h : resolve done pieces = done.reverse ++ [first, second]) :
    [first, second].Sublist pieces := by
  have hlast : (resolve done pieces).getLast? ≠ some [] := by
    rw [h]
    simpa using hsecond
  obtain ⟨kept, pushed, heq, ⟨behind, hkept⟩, hpushed⟩ := resolve_eq_append hne done hlast
  rw [h, ← hkept, List.append_assoc, List.append_cancel_left_eq] at heq
  exact (heq ▸ List.sublist_append_right behind [first, second]).trans hpushed

/-- A path that ends in a dot segment ends in a slash. -/
theorem getLast?_resolve_dot {last : List Char}
    (h : isSingleDot last = true ∨ isDoubleDot last = true) (done : List (List Char)) :
    (resolve done [last]).getLast? = some [] := by
  rw [resolve]
  split
  · rw [List.getLast?_reverse, List.head?_cons]
  · rename_i hdouble
    rw [if_pos (h.resolve_right hdouble), List.getLast?_reverse, List.head?_cons]

/-- The first of two pieces is put behind the segments that are there, or it is a dot segment and
    nothing is put behind them. -/
theorem resolve_pair (done : List (List Char)) (first second : List Char) :
    ∃ done', resolve done [first, second] = resolve done' [second] ∧
      ((isSingleDot first = false ∧ isDoubleDot first = false) ∨ done'.length ≤ done.length) := by
  rw [resolve]
  split
  · exact ⟨above done, rfl, .inr (above_suffix done).length_le⟩
  · rename_i hdouble
    split
    · exact ⟨done, rfl, .inr (Nat.le_refl _)⟩
    · rename_i hsingle
      exact ⟨first :: done, rfl, .inl ⟨by simpa using hsingle, by simpa using hdouble⟩⟩

/-- Two pieces that are put behind the segments that are there are no dot segments. -/
theorem isDot_eq_false_of_resolve {done : List (List Char)} {first second : List Char}
    (hsecond : second ≠ []) (h : resolve done [first, second] = done.reverse ++ [first, second]) :
    (isSingleDot first = false ∧ isDoubleDot first = false) ∧
      isSingleDot second = false ∧ isDoubleDot second = false := by
  obtain ⟨done', hpair, hfirst⟩ := resolve_pair done first second
  rw [hpair] at h
  have hdot : ¬ (isSingleDot second = true ∨ isDoubleDot second = true) := by
    intro hdot
    have hempty := getLast?_resolve_dot hdot done'
    rw [h] at hempty
    exact hsecond (by simpa using hempty)
  rw [not_or, Bool.not_eq_true, Bool.not_eq_true] at hdot
  -- without the first piece the path would be too short
  refine ⟨hfirst.resolve_right fun hle => ?_, hdot⟩
  rw [resolve_eq_self (List.forall_mem_singleton.mpr hdot)] at h
  have hlength := congrArg List.length h
  simp only [List.length_append, List.length_reverse, List.length_cons, List.length_nil] at hlength
  omega

/-! ## Names of dot segments -/

/-- The characters whose lower case a dot segment may have. -/
theorem eq_of_toLower (c : Char) :
    (c.toLower = '.' → c = '.') ∧ (c.toLower = '%' → c = '%') ∧ (c.toLower = '2' → c = '2') ∧
      (c.toLower = 'e' → c = 'e' ∨ c = 'E') := by
  by_cases hc : c.toNat < 0x80
  · exact Text.Utf8.of_ascii hc (by decide)
  · have hlower : c.toLower = c := by
      unfold Char.toLower
      refine dif_neg fun h => hc ?_
      exact Nat.lt_of_le_of_lt (UInt32.le_iff_toNat_le.mp h.2) (by decide)
    rw [hlower]
    exact ⟨id, id, id, .inl⟩

/-- A text that spells one dot: the dot or its escape. -/
def SpellsDot (piece : List Char) : Prop :=
  piece.map Char.toLower = ".".toList ∨ piece.map Char.toLower = "%2e".toList

theorem decode_spellsDot {piece : List Char} (h : SpellsDot piece) (rest : List Char) :
    Text.Percent.decode (Text.Utf8.encode (piece ++ rest)) =
      0x2E :: Text.Percent.decode (Text.Utf8.encode rest) := by
  rcases h with h | h
  · obtain ⟨c, _, rfl, hc, hrest⟩ := List.map_eq_cons_iff.mp h
    obtain rfl := List.map_eq_nil_iff.mp hrest
    rw [(eq_of_toLower c).1 hc]
    exact Text.Percent.decode_cons_of_ne (by decide) _
  · obtain ⟨p, _, rfl, hp, h⟩ := List.map_eq_cons_iff.mp h
    obtain ⟨two, _, rfl, htwo, h⟩ := List.map_eq_cons_iff.mp h
    obtain ⟨e, _, rfl, he, h⟩ := List.map_eq_cons_iff.mp h
    obtain rfl := List.map_eq_nil_iff.mp h
    have hhigh : Text.Percent.hexValue? 0x32 = some 2 := rfl
    have hlow : Text.Percent.hexValue? 0x65 = some 14 ∧ Text.Percent.hexValue? 0x45 = some 14 :=
      ⟨rfl, rfl⟩
    rw [(eq_of_toLower p).2.1 hp, (eq_of_toLower two).2.2.1 htwo]
    rcases (eq_of_toLower e).2.2.2 he with rfl | rfl
    · exact Text.Percent.decode_escape hhigh hlow.1 _
    · exact Text.Percent.decode_escape hhigh hlow.2 _

/-- A segment that means its own directory stands for a dot. -/
theorem decode_of_isSingleDot {segment : List Char} (h : isSingleDot segment = true) :
    Text.Percent.decode (Text.Utf8.encode segment) = Text.Utf8.encode ['.'] := by
  have hdot : SpellsDot segment := by simpa [isSingleDot, SpellsDot] using h
  have hdecoded := decode_spellsDot hdot []
  rwa [List.append_nil] at hdecoded

/-- A segment that means the directory above stands for two dots. -/
theorem decode_of_isDoubleDot {segment : List Char} (h : isDoubleDot segment = true) :
    Text.Percent.decode (Text.Utf8.encode segment) = Text.Utf8.encode ['.', '.'] := by
  obtain ⟨first, second, rfl, hfirst, hsecond⟩ :
      ∃ first second, segment = first ++ second ∧ SpellsDot first ∧ SpellsDot second := by
    -- the four forms of two dots are the pairs of the two forms of one
    have hforms : ∃ first second : List Char, segment.map Char.toLower = first ++ second ∧
        (first = ".".toList ∨ first = "%2e".toList) ∧
        (second = ".".toList ∨ second = "%2e".toList) := by
      simp only [isDoubleDot, List.any_cons, List.any_nil, Bool.or_false, Bool.or_eq_true,
        beq_iff_eq] at h
      rcases h with h | h | h | h
      · exact ⟨".".toList, ".".toList, h, .inl rfl, .inl rfl⟩
      · exact ⟨".".toList, "%2e".toList, h, .inl rfl, .inr rfl⟩
      · exact ⟨"%2e".toList, ".".toList, h, .inr rfl, .inl rfl⟩
      · exact ⟨"%2e".toList, "%2e".toList, h, .inr rfl, .inr rfl⟩
    obtain ⟨front, back, hlower, hfront, hback⟩ := hforms
    obtain ⟨first, second, hsegment, rfl, rfl⟩ := List.map_eq_append_iff.mp hlower
    exact ⟨first, second, hsegment, hfront, hback⟩
  have hdecoded := decode_spellsDot hsecond []
  rw [List.append_nil] at hdecoded
  rw [decode_spellsDot hfirst, hdecoded]
  rfl

theorem keepsEscapes_isPlainInPath : Text.Percent.KeepsEscapes isPlainInPath where
  percent := by decide
  hex c h := by
    have hplain : Text.Percent.isHex c = true → isPlainInPath c = true :=
      Text.Utf8.of_ascii (Text.Percent.toNat_lt_of_isHex h) (by decide)
    exact hplain h

/-- An escaped name without escapes of its own is no dot segment unless the name is one. -/
theorem isDot_encode_eq_false {name : List Char} (hfree : Text.Percent.EscapeFree name)
    (hdot : name ≠ ['.']) (hdots : name ≠ ['.', '.']) :
    isSingleDot (Text.Percent.encode isPlainInPath name) = false ∧
      isDoubleDot (Text.Percent.encode isPlainInPath name) = false := by
  have hdecoded := Text.Percent.decode_escaped keepsEscapes_isPlainInPath hfree
  constructor
  · refine Bool.eq_false_iff.mpr fun h => hdot ?_
    exact Text.Utf8.encode_injective (hdecoded.symm.trans (decode_of_isSingleDot h))
  · refine Bool.eq_false_iff.mpr fun h => hdots ?_
    exact Text.Utf8.encode_injective (hdecoded.symm.trans (decode_of_isDoubleDot h))

/-- A name that does not become a dot segment is none. -/
theorem ne_dots_of_encode {name : List Char}
    (h : isSingleDot (Text.Percent.encode isPlainInPath name) = false ∧
      isDoubleDot (Text.Percent.encode isPlainInPath name) = false) :
    name ≠ ".".toList ∧ name ≠ "..".toList := by
  have hdot : isSingleDot (Text.Percent.encode isPlainInPath ".".toList) = true := by decide
  have hdots : isDoubleDot (Text.Percent.encode isPlainInPath "..".toList) = true := by decide
  constructor
  · rintro rfl
    exact Bool.false_ne_true (h.1.symm.trans hdot)
  · rintro rfl
    exact Bool.false_ne_true (h.2.symm.trans hdots)

end SearchGateway.Http.Url
