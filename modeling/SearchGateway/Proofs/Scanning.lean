/-
  SearchGateway.Proofs.Scanning

  How the scanners of a text behave on a text that is written out in pieces.
-/
import SearchGateway.Text.Scan

namespace SearchGateway.Text

/-! ## Parts with separators between them -/

theorem notMem_intercalate {β : Type} {c : Char} {separator : List Char} {text : β → List Char}
    {parts : List β} (hseparator : c ∉ separator) (hparts : ∀ part ∈ parts, c ∉ text part) :
    c ∉ separator.intercalate (parts.map text) := by
  induction parts with
  | nil => exact List.not_mem_nil
  | cons part parts ih =>
    rw [List.forall_mem_cons] at hparts
    cases parts with
    | nil =>
      rw [List.map_singleton, List.intercalate_singleton]
      exact hparts.1
    | cons next parts =>
      rw [List.map_cons, List.map_cons, List.intercalate_cons_cons]
      exact List.not_mem_append (List.not_mem_append hparts.1 hseparator) (ih hparts.2)

/-- Before a part come the parts in front of it, each with a separator behind it, and after it those
    behind it, each with a separator in front of it. -/
theorem intercalate_append_cons (separator part : List Char) (before behind : List (List Char)) :
    separator.intercalate (before ++ part :: behind) =
      before.flatMap (· ++ separator) ++ part ++ behind.flatMap (separator ++ ·) := by
  induction before with
  | nil =>
    rw [List.nil_append, List.flatMap_nil, List.nil_append]
    -- the part behind takes the place of the part, with the separator in front of it
    induction behind generalizing part with
    | nil => simp
    | cons next behind ih =>
      rw [List.intercalate_cons_cons, ih, List.flatMap_cons]
      simp only [List.append_assoc]
  | cons first before ih =>
    rw [List.cons_append, List.intercalate_cons_of_ne_nil (by simp), ih, List.flatMap_cons]
    simp only [List.append_assoc]

/-- The parts with a separator before each of them are the text with a separator before it. -/
theorem flatMap_splitOnto (separator : Char) (current cs : List Char) :
    (splitOnto separator current cs).flatMap (separator :: ·) =
      separator :: (current.reverse ++ cs) := by
  induction cs generalizing current with
  | nil => simp [splitOnto]
  | cons c cs ih =>
    rw [splitOnto]
    split
    · rename_i hseparator
      rw [List.flatMap_cons, ih, hseparator]
      simp
    · rw [ih]
      simp

theorem flatMap_split (separator : Char) (cs : List Char) :
    (split separator cs).flatMap (separator :: ·) = separator :: cs :=
  flatMap_splitOnto separator [] cs

theorem split_ne_nil (separator : Char) (cs : List Char) : split separator cs ≠ [] := by
  intro h
  have hjoined := flatMap_split separator cs
  rw [h] at hjoined
  exact nomatch hjoined

theorem notMem_of_mem_splitOnto {separator : Char} {current cs part : List Char}
    (hcurrent : separator ∉ current) (h : part ∈ splitOnto separator current cs) :
    separator ∉ part := by
  -- the invariant of the scan: what has been read of the current part has no separator in it
  induction cs generalizing current with
  | nil =>
    obtain rfl := List.mem_singleton.mp h
    rwa [List.mem_reverse]
  | cons c cs ih =>
    rw [splitOnto] at h
    split at h
    · rcases List.mem_cons.mp h with rfl | hrest
      · rwa [List.mem_reverse]
      · exact ih List.not_mem_nil hrest
    · rename_i hc
      exact ih (by simpa using ⟨Ne.symm hc, hcurrent⟩) h

/-- No part has a separator in it. -/
theorem notMem_of_mem_split {separator : Char} {cs part : List Char}
    (h : part ∈ split separator cs) : separator ∉ part :=
  notMem_of_mem_splitOnto List.not_mem_nil h

theorem splitOnto_append {separator : Char} {part : List Char} (h : separator ∉ part)
    (current rest : List Char) :
    splitOnto separator current (part ++ separator :: rest) =
      (current.reverse ++ part) :: split separator rest := by
  induction part generalizing current with
  | nil => simp [splitOnto, split]
  | cons c part ih =>
    rw [List.mem_cons, not_or] at h
    rw [List.cons_append, splitOnto, if_neg (Ne.symm h.1), ih h.2]
    simp

/-- A part in front of a separator comes off as it is. -/
theorem split_append {separator : Char} {part : List Char} (h : separator ∉ part)
    (rest : List Char) :
    split separator (part ++ separator :: rest) = part :: split separator rest :=
  splitOnto_append h [] rest

theorem splitOnto_of_notMem {separator : Char} {part : List Char} (h : separator ∉ part)
    (current : List Char) :
    splitOnto separator current part = [current.reverse ++ part] := by
  induction part generalizing current with
  | nil => simp [splitOnto]
  | cons c part ih =>
    rw [List.mem_cons, not_or] at h
    rw [splitOnto, if_neg (Ne.symm h.1), ih h.2]
    simp

theorem split_of_notMem {separator : Char} {part : List Char} (h : separator ∉ part) :
    split separator part = [part] :=
  splitOnto_of_notMem h []

/-- Parts with a separator in front of each of them come off one by one. -/
theorem split_flatMap {separator : Char} {parts : List (List Char)}
    (h : ∀ part ∈ parts, separator ∉ part) (rest : List Char) :
    split separator ((parts.flatMap (separator :: ·) ++ separator :: rest).drop 1) =
      parts ++ split separator rest := by
  induction parts with
  | nil => rfl
  | cons part parts ih =>
    rw [List.forall_mem_cons] at h
    -- what follows the part begins with a separator, whatever it is
    obtain ⟨behind, hbehind⟩ :
        ∃ behind, parts.flatMap (separator :: ·) ++ separator :: rest = separator :: behind := by
      cases parts with
      | nil => exact ⟨_, rfl⟩
      | cons next parts => exact ⟨_, rfl⟩
    have hih : split separator behind = parts ++ split separator rest := by
      rw [← ih h.2, hbehind, List.drop_one, List.tail_cons]
    rw [List.flatMap_cons, List.append_assoc, hbehind, List.cons_append, List.drop_one,
      List.tail_cons, split_append h.1, hih, List.cons_append]

/-- Parts with a separator between neighbours come off as they are. -/
theorem split_intercalate {separator : Char} {parts : List (List Char)} (hne : parts ≠ [])
    (h : ∀ part ∈ parts, separator ∉ part) :
    split separator ([separator].intercalate parts) = parts := by
  induction parts with
  | nil => exact absurd rfl hne
  | cons part parts ih =>
    rw [List.forall_mem_cons] at h
    cases parts with
    | nil => rw [List.intercalate_singleton, split_of_notMem h.1]
    | cons next parts =>
      rw [List.intercalate_cons_cons, List.append_assoc, List.singleton_append, split_append h.1,
        ih (List.cons_ne_nil _ _) h.2]

theorem length_splitOnto (separator : Char) (current cs : List Char) :
    (splitOnto separator current cs).length = cs.count separator + 1 := by
  induction cs generalizing current with
  | nil => rfl
  | cons c cs ih =>
    rw [splitOnto]
    split
    · rename_i hseparator
      rw [List.length_cons, ih, hseparator, List.count_cons_self]
    · rename_i hseparator
      rw [ih, List.count_cons_of_ne hseparator]

/-- There is one part more than separators. -/
theorem length_split (separator : Char) (cs : List Char) :
    (split separator cs).length = cs.count separator + 1 :=
  length_splitOnto separator [] cs

/-- Some of the parts are not longer together than all of them, and shorter if they are not all. -/
theorem length_flatMap_le (separator : Char) {few all : List (List Char)}
    (h : few.Sublist all) :
    (few.flatMap (separator :: ·)).length ≤ (all.flatMap (separator :: ·)).length ∧
      ((all.flatMap (separator :: ·)).length ≤ (few.flatMap (separator :: ·)).length →
        few = all) := by
  induction h with
  | slnil => exact ⟨Nat.le_refl _, fun _ => rfl⟩
  | cons part _ ih =>
    simp only [List.flatMap_cons, List.length_append, List.length_cons]
    constructor
    · omega
    · -- the part that is left out has at least its separator
      intro hle
      omega
  | cons_cons part _ ih =>
    simp only [List.flatMap_cons, List.length_append, List.length_cons]
    constructor
    · omega
    · intro hle
      rw [ih.2 (by omega)]

/-- A part is not longer than the text, and if it is as long it is the text. -/
theorem length_le_of_mem_split {separator : Char} {part cs : List Char}
    (h : part ∈ split separator cs) :
    part.length ≤ cs.length ∧ (part.length = cs.length → part = cs) := by
  obtain ⟨hle, hall⟩ := length_flatMap_le separator (List.singleton_sublist.mpr h)
  have hjoined := flatMap_split separator cs
  rw [hjoined, List.flatMap_singleton, List.length_cons, List.length_cons] at hle hall
  refine ⟨Nat.le_of_succ_le_succ hle, fun hlength => ?_⟩
  rw [← hall (by omega), List.flatMap_singleton] at hjoined
  exact (List.cons.inj hjoined).2

/-- Two of the parts that fill a text are its only parts. -/
theorem split_eq_pair {separator : Char} {first second cs : List Char}
    (h : [first, second].Sublist (split separator cs))
    (hlength : cs.length ≤ first.length + second.length + 1) :
    split separator cs = [first, second] ∧ cs = first ++ separator :: second := by
  have hpair : [first, second] = split separator cs := by
    refine (length_flatMap_le separator h).2 ?_
    rw [flatMap_split]
    simp only [List.flatMap_cons, List.flatMap_nil, List.length_append, List.length_cons,
      List.length_nil]
    omega
  refine ⟨hpair.symm, ?_⟩
  have hjoined := flatMap_split separator cs
  rw [← hpair] at hjoined
  simpa using hjoined.symm

/-! ## Characters -/

/-- What a check of the characters one by one finds. -/
theorem forall_mem_of_all {p : Char → Prop} [DecidablePred p] {cs : List Char}
    (h : cs.all (fun c => decide (p c)) = true) : ∀ c ∈ cs, p c := fun c hc =>
  of_decide_eq_true (List.all_eq_true.mp h c hc)

/-! ## Runs -/

theorem takeWhile_run {p : Char → Bool} {run : List Char} (hrun : ∀ c ∈ run, p c = true) {c : Char}
    (hc : p c = false) (rest : List Char) : (run ++ c :: rest).takeWhile p = run := by
  rw [List.takeWhile_append_of_pos hrun, List.takeWhile_cons_of_neg (by simp [hc]), List.append_nil]

theorem dropWhile_run {p : Char → Bool} {run : List Char} (hrun : ∀ c ∈ run, p c = true) {c : Char}
    (hc : p c = false) (rest : List Char) : (run ++ c :: rest).dropWhile p = c :: rest := by
  rw [List.dropWhile_append_of_pos hrun, List.dropWhile_cons_of_neg (by simp [hc])]

/-- A text is a run, or begins with a run and a character that ends it. -/
theorem exists_run (p : Char → Bool) (cs : List Char) :
    (∀ c ∈ cs, p c = true) ∨
      ∃ run c rest, (∀ d ∈ run, p d = true) ∧ p c = false ∧ cs = run ++ c :: rest := by
  have hrun : ∀ d ∈ cs.takeWhile p, p d = true := List.all_eq_true.mp List.all_takeWhile
  have hsplit := List.takeWhile_append_dropWhile (p := p) (l := cs)
  cases hbehind : cs.dropWhile p with
  | nil =>
    rw [hbehind, List.append_nil] at hsplit
    rw [hsplit] at hrun
    exact .inl hrun
  | cons c rest =>
    have hc : p c = false := by simpa [hbehind] using List.head?_dropWhile_not p cs
    rw [hbehind] at hsplit
    exact .inr ⟨_, c, rest, hrun, hc, hsplit.symm⟩

/-! ## Beginnings and closing characters -/

theorem after?_append (beginning rest : List Char) :
    after? beginning (beginning ++ rest) = some rest := by
  induction beginning with
  | nil => rfl
  | cons b beginning ih => rw [List.cons_append, after?, if_pos rfl, ih]

theorem eq_append_of_after? {beginning cs rest : List Char}
    (h : after? beginning cs = some rest) : cs = beginning ++ rest := by
  induction beginning generalizing cs with
  | nil => exact Option.some.inj h
  | cons b beginning ih =>
    cases cs with
    | nil => exact nomatch h
    | cons c cs =>
      rw [after?] at h
      split at h
      · rename_i hc
        rw [hc, ih h, List.cons_append]
      · exact nomatch h

theorem dropSpace_cons {c : Char} (h : isSpace c = false) (cs : List Char) :
    dropSpace (c :: cs) = c :: cs :=
  List.dropWhile_cons_of_neg (by simp [h])

theorem dropSpace_blank (cs : List Char) : dropSpace (' ' :: cs) = dropSpace cs :=
  List.dropWhile_cons_of_pos (by decide)

/-- A stretch ends at its first closing character. -/
theorem upTo?_append {close : Char} {body : List Char} (h : close ∉ body) (rest : List Char) :
    upTo? close (body ++ close :: rest) = some (body, rest) := by
  have hbody : ∀ c ∈ body, (c != close) = true := fun c hc => by
    simpa using fun heq : c = close => h (heq ▸ hc)
  have hclose : (close != close) = false := by simp
  rw [upTo?, dropWhile_run hbody hclose, takeWhile_run hbody hclose]

theorem enclosed?_append (opening : Char) {close : Char} {body : List Char} (h : close ∉ body)
    (rest : List Char) :
    enclosed? opening close (opening :: (body ++ close :: rest)) = some (body, rest) := by
  rw [enclosed?, if_pos rfl, upTo?_append h]

theorem enclosed?_of_ne {opening close c : Char} (h : c ≠ opening) (cs : List Char) :
    enclosed? opening close (c :: cs) = none := by
  rw [enclosed?, if_neg h]

/-- A stretch that is found has no closing character in it, and one behind it. -/
theorem eq_append_of_upTo? {close : Char} {cs body rest : List Char}
    (h : upTo? close cs = some (body, rest)) : close ∉ body ∧ cs = body ++ close :: rest := by
  have hsplit := List.takeWhile_append_dropWhile (p := (· != close)) (l := cs)
  have hhead := List.head?_dropWhile_not (· != close) cs
  unfold upTo? at h
  split at h
  · exact nomatch h
  · rename_i c behind hbehind
    obtain ⟨rfl, rfl⟩ := Prod.mk.inj (Option.some.inj h)
    rw [hbehind] at hsplit hhead
    obtain rfl : c = close := by simpa using hhead
    refine ⟨fun hmem => ?_, hsplit.symm⟩
    have hkept : (cs.takeWhile (· != c)).all (· != c) = true := List.all_takeWhile
    simpa using List.all_eq_true.mp hkept c hmem

theorem eq_append_of_enclosed? {opening close : Char} {cs body rest : List Char}
    (h : enclosed? opening close cs = some (body, rest)) :
    close ∉ body ∧ cs = opening :: (body ++ close :: rest) := by
  cases cs with
  | nil => exact nomatch h
  | cons c cs =>
    rw [enclosed?] at h
    split at h
    · rename_i hopening
      obtain ⟨hbody, rfl⟩ := eq_append_of_upTo? h
      exact ⟨hbody, by rw [hopening]⟩
    · exact nomatch h

/-- Whitespace in front of something else is dropped. -/
theorem dropSpace_append {gap cs : List Char} (hgap : isBlank gap = true)
    (hcs : ∀ c ∈ cs.head?, isSpace c = false) : dropSpace (gap ++ cs) = cs := by
  rw [dropSpace, List.dropWhile_append_of_pos (List.all_eq_true.mp hgap)]
  cases cs with
  | nil => rfl
  | cons c cs => exact dropSpace_cons (hcs c rfl) cs

theorem exists_gap (cs : List Char) : ∃ gap, isBlank gap = true ∧ cs = gap ++ dropSpace cs :=
  ⟨cs.takeWhile isSpace, List.all_takeWhile, List.takeWhile_append_dropWhile.symm⟩

/-! ## Ends that are cut off -/

theorem dropWhile_eq_self {p : Char → Bool} {cs : List Char}
    (h : ∀ c ∈ cs.head?, p c = false) : cs.dropWhile p = cs := by
  cases cs with
  | nil => rfl
  | cons c cs => exact List.dropWhile_cons_of_neg (by simp [h c rfl])

theorem trimEnd_eq_self {p : Char → Bool} {cs : List Char}
    (h : ∀ c ∈ cs.getLast?, p c = false) : trimEnd p cs = cs := by
  rw [trimEnd, dropWhile_eq_self (by rwa [List.head?_reverse]), List.reverse_reverse]

/-- Dropping at the front stops at a character outside the class, if not before it. -/
theorem dropWhile_append_cons {p : Char → Bool} {c : Char} (hc : p c = false)
    (front rest : List Char) :
    (front ++ c :: rest).dropWhile p = front.dropWhile p ++ c :: rest := by
  induction front with
  | nil => exact List.dropWhile_cons_of_neg (by simp [hc])
  | cons d front ih =>
    rw [List.cons_append, List.dropWhile_cons, ih, List.dropWhile_cons]
    split <;> rfl

theorem trimEnd_append_cons {p : Char → Bool} {c : Char} (hc : p c = false)
    (front rest : List Char) : trimEnd p (front ++ c :: rest) = front ++ c :: trimEnd p rest := by
  rw [trimEnd, List.reverse_append, List.reverse_cons, List.append_assoc, List.singleton_append,
    dropWhile_append_cons hc]
  simp [trimEnd]

/-- Trimming at the end stops at a front that ends outside the class. -/
theorem trimEnd_append {p : Char → Bool} {front : List Char} (hne : front ≠ [])
    (hlast : ∀ c ∈ front.getLast?, p c = false) (rest : List Char) :
    trimEnd p (front ++ rest) = front ++ trimEnd p rest := by
  obtain ⟨init, last, rfl⟩ := (List.eq_nil_or_concat front).resolve_left hne
  rw [List.concat_eq_append] at hlast ⊢
  rw [List.append_assoc, List.singleton_append,
    trimEnd_append_cons (hlast last List.getLast?_concat), List.append_assoc, List.singleton_append]

/-- What is left after trimming at the end is the front of the text. -/
theorem trimEnd_isPrefix (p : Char → Bool) (cs : List Char) : trimEnd p cs <+: cs := by
  obtain ⟨dropped, hdropped⟩ := List.dropWhile_suffix p (l := cs.reverse)
  refine ⟨dropped.reverse, ?_⟩
  rw [trimEnd, ← List.reverse_append, hdropped, List.reverse_reverse]

theorem eq_false_of_head?_dropWhile {p : Char → Bool} {cs : List Char} :
    ∀ c ∈ (cs.dropWhile p).head?, p c = false := by
  intro c hc
  have hhead := List.head?_dropWhile_not p cs
  rw [hc] at hhead
  simpa using hhead

theorem eq_false_of_getLast?_trimEnd {p : Char → Bool} {cs : List Char} :
    ∀ c ∈ (trimEnd p cs).getLast?, p c = false := by
  rw [trimEnd, List.getLast?_reverse]
  exact eq_false_of_head?_dropWhile

/-- A text that trimming leaves alone ends outside the class. -/
theorem eq_false_of_trimEnd {p : Char → Bool} {cs : List Char} (h : trimEnd p cs = cs) :
    ∀ c ∈ cs.getLast?, p c = false :=
  h ▸ eq_false_of_getLast?_trimEnd

/-- Nothing is cut off a text with both ends outside the class. -/
theorem trimBy_eq_self {p : Char → Bool} {cs : List Char} (hfirst : ∀ c ∈ cs.head?, p c = false)
    (hlast : ∀ c ∈ cs.getLast?, p c = false) : trimBy p cs = cs := by
  rw [trimBy, dropWhile_eq_self hfirst, trimEnd_eq_self hlast]

/-- One character of the class at either end is cut off a text that has none in it. -/
theorem trimBy_enclosed {p : Char → Bool} {c : Char} (hc : p c = true) {body : List Char}
    (hbody : ∀ d ∈ body, p d = false) : trimBy p (c :: (body ++ [c])) = body := by
  have hfirst : (c :: (body ++ [c])).dropWhile p = if body = [] then [] else body ++ [c] := by
    rw [List.dropWhile_cons_of_pos hc]
    cases body with
    -- around an empty body both characters are cut off from the front
    | nil => simp [hc]
    | cons d body => simp [hbody d List.mem_cons_self]
  rw [trimBy, hfirst]
  split
  · rename_i hempty
    rw [hempty]
    rfl
  · have hlast : ∀ d ∈ body.reverse.head?, p d = false := fun d hd =>
      hbody d (List.mem_reverse.mp (List.mem_of_mem_head? hd))
    rw [trimEnd, List.reverse_append, List.reverse_singleton, List.singleton_append,
      List.dropWhile_cons_of_pos hc, dropWhile_eq_self hlast, List.reverse_reverse]

theorem infix_trimBy (p : Char → Bool) (cs : List Char) : trimBy p cs <:+: cs :=
  (trimEnd_isPrefix p (cs.dropWhile p)).isInfix.trans (List.dropWhile_suffix p).isInfix

/-- A text that neither begins nor ends with whitespace. -/
structure IsTrimmed (cs : List Char) : Prop where
  first : ∀ c ∈ cs.head?, isSpace c = false
  last : ∀ c ∈ cs.getLast?, isSpace c = false

theorem isTrimmed_iff {cs : List Char} : IsTrimmed cs ↔
    cs.head?.all (!isSpace ·) = true ∧ cs.getLast?.all (!isSpace ·) = true := by
  simp only [Option.all_eq_true, Bool.not_eq_true']
  exact ⟨fun h => ⟨h.first, h.last⟩, fun h => ⟨h.1, h.2⟩⟩

instance (cs : List Char) : Decidable (IsTrimmed cs) :=
  decidable_of_iff' _ isTrimmed_iff

theorem isTrimmed_trim (cs : List Char) : IsTrimmed (trim cs) where
  first c hc := by
    -- what is cut off at the end is behind the first character that stays
    obtain ⟨behind, hbehind⟩ := trimEnd_isPrefix isSpace (cs.dropWhile isSpace)
    have hkept : (trimEnd isSpace (cs.dropWhile isSpace)).head? = some c := hc
    refine @eq_false_of_head?_dropWhile isSpace cs c ?_
    rw [← hbehind, List.head?_append, hkept]
    rfl
  last := eq_false_of_getLast?_trimEnd

theorem IsTrimmed.trim_eq {cs : List Char} (h : IsTrimmed cs) : trim cs = cs :=
  trimBy_eq_self h.first h.last

/-- Trimming takes off the whitespace around a text that has none at its ends. -/
theorem IsTrimmed.trim_gaps {cs : List Char} (h : IsTrimmed cs) {before behind : List Char}
    (hbefore : isBlank before = true) (hbehind : isBlank behind = true) :
    trim (before ++ (cs ++ behind)) = cs := by
  have hgap {gap : List Char} (hgap : ∀ c ∈ gap, isSpace c = true) :
      gap.dropWhile isSpace = [] := by
    rw [← List.append_nil gap, List.dropWhile_append_of_pos hgap]
    rfl
  have hspaces := List.all_eq_true.mp hbehind
  have hend : trimEnd isSpace behind = [] := by
    rw [trimEnd, hgap fun c hc => hspaces c (List.mem_reverse.mp hc), List.reverse_nil]
  rw [trim, trimBy, List.dropWhile_append_of_pos (List.all_eq_true.mp hbefore)]
  cases cs with
  | nil =>
    rw [List.nil_append, hgap hspaces]
    rfl
  | cons c cs =>
    have hfirst : ∀ d ∈ (c :: cs ++ behind).head?, isSpace d = false := h.first
    rw [dropWhile_eq_self hfirst,
      trimEnd_append (List.cons_ne_nil c cs) h.last, hend, List.append_nil]

/-! ## Words -/

theorem wordsOnto_append {word : List Char} (hword : ∀ c ∈ word, isWord c = true)
    {c : Char} (hc : isWord c = false) (current rest : List Char)
    (hne : current ≠ [] ∨ word ≠ []) :
    wordsOnto current (word ++ c :: rest) = (current.reverse ++ word) :: words rest := by
  induction word generalizing current with
  | nil =>
    -- a word is closed only if something of it has been read
    have hcurrent : ¬ current.isEmpty = true := by simpa using hne
    simp [wordsOnto, hc, hcurrent, words]
  | cons d word ih =>
    rw [List.forall_mem_cons] at hword
    rw [List.cons_append, wordsOnto, if_pos hword.1, ih hword.2 _ (.inl (List.cons_ne_nil _ _))]
    simp

/-- A run of word characters in front of another character is the first word. -/
theorem words_append {word : List Char} (hne : word ≠ []) (hword : ∀ c ∈ word, isWord c = true)
    {c : Char} (hc : isWord c = false) (rest : List Char) :
    words (word ++ c :: rest) = word :: words rest :=
  wordsOnto_append hword hc [] rest (.inr hne)

theorem words_cons {c : Char} (h : isWord c = false) (rest : List Char) :
    words (c :: rest) = words rest := by
  rw [words, wordsOnto, if_neg (by simp [h])]
  rfl

theorem ne_nil_of_mem_wordsOnto {current cs word : List Char} (h : word ∈ wordsOnto current cs) :
    word ≠ [] := by
  have hclosed : ∀ {run : List Char}, ¬ run.isEmpty = true → run.reverse ≠ [] := by
    intro run hrun hempty
    exact hrun (List.isEmpty_iff.mpr (List.reverse_eq_nil_iff.mp hempty))
  induction cs generalizing current with
  | nil =>
    rw [wordsOnto] at h
    split at h
    · exact absurd h List.not_mem_nil
    · rename_i hcurrent
      rw [List.mem_singleton.mp h]
      exact hclosed hcurrent
  | cons c cs ih =>
    rw [wordsOnto] at h
    split at h
    · exact ih h
    · split at h
      · exact ih h
      · rename_i hcurrent
        rcases List.mem_cons.mp h with rfl | h
        · exact hclosed hcurrent
        · exact ih h

/-- A word has at least one character. -/
theorem ne_nil_of_mem_words {cs word : List Char} (h : word ∈ words cs) : word ≠ [] :=
  ne_nil_of_mem_wordsOnto h

/-! ## Pieces that a recogniser passes over -/

section Blind

variable {α : Type} {recognise : List Char → Option α} {keyword : List Char} {mark : Char}

/-- A recogniser is blind to a piece of text when it has no answer at any position in the piece,
    whatever follows the piece. -/
def Blind (recognise : List Char → Option α) : List Char → Prop
  | [] => True
  | c :: cs => (∀ rest, recognise (c :: cs ++ rest) = none) ∧ Blind recognise cs

theorem Blind.append {first second : List Char} (hfirst : Blind recognise first)
    (hsecond : Blind recognise second) : Blind recognise (first ++ second) := by
  induction first with
  | nil => exact hsecond
  | cons c first ih =>
    refine ⟨fun rest => ?_, ih hfirst.2⟩
    have hhere := hfirst.1 (second ++ rest)
    rwa [← List.append_assoc] at hhere

theorem Blind.flatMap {β : Type} {pieces : List β} {text : β → List Char}
    (h : ∀ piece ∈ pieces, Blind recognise (text piece)) :
    Blind recognise (pieces.flatMap text) := by
  induction pieces with
  | nil => exact trivial
  | cons piece pieces ih =>
    rw [List.forall_mem_cons] at h
    rw [List.flatMap_cons]
    exact h.1.append (ih h.2)

theorem Blind.intercalate {separator : List Char} (hseparator : Blind recognise separator)
    {pieces : List (List Char)} (h : ∀ piece ∈ pieces, Blind recognise piece) :
    Blind recognise (separator.intercalate pieces) := by
  cases pieces with
  | nil => exact trivial
  | cons piece pieces =>
    rw [List.forall_mem_cons] at h
    have hbehind := intercalate_append_cons separator piece [] pieces
    rw [List.nil_append, List.flatMap_nil, List.nil_append] at hbehind
    rw [hbehind]
    exact h.1.append (.flatMap fun next hnext => hseparator.append (h.2 next hnext))

theorem Blind.firstMatch {piece : List Char} (h : Blind recognise piece) (rest : List Char) :
    firstMatch recognise (piece ++ rest) = firstMatch recognise rest := by
  induction piece with
  | nil => rfl
  | cons c piece ih =>
    have hhere : recognise (c :: (piece ++ rest)) = none := h.1 rest
    rw [List.cons_append, Text.firstMatch, hhere]
    exact ih h.2

/-- Whether a word character stands before what follows a piece. -/
def endsInWord (inWord : Bool) (piece : List Char) : Bool :=
  piece.foldl (fun _ c => isWord c) inWord

theorem endsInWord_append (inWord : Bool) (first second : List Char) :
    endsInWord inWord (first ++ second) = endsInWord (endsInWord inWord first) second :=
  List.foldl_append

theorem endsInWord_cons (inWord : Bool) (c : Char) (cs : List Char) :
    endsInWord inWord (c :: cs) = endsInWord (isWord c) cs := rfl

theorem endsInWord_concat (inWord : Bool) (cs : List Char) (c : Char) :
    endsInWord inWord (cs ++ [c]) = isWord c := by
  rw [endsInWord_append]
  rfl

theorem Blind.firstMatchOutsideWord {piece : List Char} (h : Blind recognise piece)
    (inWord : Bool) (rest : List Char) :
    firstMatchOutsideWord recognise inWord (piece ++ rest) =
      firstMatchOutsideWord recognise (endsInWord inWord piece) rest := by
  induction piece generalizing inWord with
  | nil => rfl
  | cons c piece ih =>
    have hhere : recognise (c :: (piece ++ rest)) = none := h.1 rest
    rw [List.cons_append, Text.firstMatchOutsideWord, hhere, ite_self]
    exact ih h.2 (isWord c)

theorem firstMatch_here {cs : List Char} {x : α} (h : recognise cs = some x) :
    firstMatch recognise cs = some x := by
  cases cs with
  | nil => exact h
  | cons c cs => rw [firstMatch, h]

theorem firstMatchOutsideWord_here {cs : List Char} {x : α} (h : recognise cs = some x) :
    firstMatchOutsideWord recognise false cs = some x := by
  cases cs with
  | nil => exact h
  | cons c cs => rw [firstMatchOutsideWord, if_neg Bool.false_ne_true, h]

/-- A recogniser of a keyword, and of a mark that follows it after whitespace. -/
structure Seeks (keyword : List Char) (mark : Char) (recognise : List Char → Option α) : Prop where
  found : ∀ {cs x}, recognise cs = some x →
    ∃ gap rest, (∀ c ∈ gap, isSpace c = true) ∧ cs = keyword ++ gap ++ mark :: rest

theorem Seeks.eq_none (h : Seeks keyword mark recognise) {cs : List Char}
    (hcs : ∀ gap rest, (∀ c ∈ gap, isSpace c = true) → cs ≠ keyword ++ gap ++ mark :: rest) :
    recognise cs = none := by
  cases hfound : recognise cs with
  | none => rfl
  | some x =>
    obtain ⟨gap, rest, hgap, heq⟩ := h.found hfound
    exact absurd heq (hcs gap rest hgap)

/-- Before the first mark stands the whole keyword. -/
theorem mem_of_append_cons_eq {q u r r' : List Char} {c : Char} (hq : mark ∉ q)
    (h : q ++ c :: r = u ++ mark :: r') : c = mark ∨ c ∈ u := by
  induction q generalizing u with
  | nil =>
    cases u with
    | nil => exact .inl (List.cons.inj h).1
    | cons d u => exact .inr ((List.cons.inj h).1 ▸ List.mem_cons_self)
  | cons d q ih =>
    rw [List.mem_cons, not_or] at hq
    cases u with
    | nil => exact absurd (List.cons.inj h).1.symm hq.1
    | cons e u => exact (ih hq.2 (List.cons.inj h).2).imp_right (List.mem_cons_of_mem _)

/-- A piece without a mark is passed over if it ends in a character that is neither of the keyword
    nor whitespace. -/
theorem Seeks.blind_stop (h : Seeks keyword mark recognise) {q : List Char} {c : Char}
    (hq : mark ∉ q) (hkeyword : c ∉ keyword) (hspace : isSpace c = false) (hmark : c ≠ mark) :
    Blind recognise (q ++ [c]) := by
  have hnone (tail rest : List Char) (htail : mark ∉ tail) :
      recognise (tail ++ c :: rest) = none := by
    refine h.eq_none fun gap rest' hgap heq => ?_
    -- what is found goes beyond the last character, which is then in the keyword or in the gap
    rcases mem_of_append_cons_eq htail heq with hc | hc
    · exact hmark hc
    · rcases List.mem_append.mp hc with hc | hc
      · exact hkeyword hc
      · exact absurd (hgap c hc) (by simp [hspace])
  induction q with
  | nil => exact ⟨fun rest => hnone [] rest hq, trivial⟩
  | cons d q ih =>
    refine ⟨fun rest => ?_, ih (List.not_mem_of_not_mem_cons hq)⟩
    simpa using hnone (d :: q) rest hq

/-- A piece without the first character of the keyword is passed over. -/
theorem Seeks.blind_of_notMem {k : Char} (h : Seeks (k :: keyword) mark recognise)
    {piece : List Char} (hpiece : k ∉ piece) : Blind recognise piece := by
  induction piece with
  | nil => exact trivial
  | cons c piece ih =>
    rw [List.mem_cons, not_or] at hpiece
    refine ⟨fun rest => h.eq_none fun gap rest' _ heq => ?_, ih hpiece.2⟩
    exact hpiece.1 (List.cons.inj heq).1.symm

/-- Two texts with the same first mark agree before it. -/
theorem eq_of_append_cons_eq {u v r r' : List Char} (hu : mark ∉ u) (hv : mark ∉ v)
    (h : u ++ mark :: r = v ++ mark :: r') : u = v := by
  have hup := upTo?_append hu r
  rw [h, upTo?_append hv r'] at hup
  exact (Prod.mk.inj (Option.some.inj hup)).1.symm

/-- A recogniser of a keyword right before a mark. -/
structure SeeksLabel (keyword : List Char) (mark : Char) (recognise : List Char → Option α) :
    Prop where
  bare : mark ∉ keyword
  found : ∀ {cs x}, recognise cs = some x → ∃ rest, cs = keyword ++ mark :: rest

theorem SeeksLabel.seeks (h : SeeksLabel keyword mark recognise) :
    Seeks keyword mark recognise where
  found hfound := by
    obtain ⟨rest, hcs⟩ := h.found hfound
    exact ⟨[], rest, fun _ hmem => (nomatch hmem), by rw [hcs, List.append_nil]⟩

/-- A label is passed over if the keyword is no ending of it. -/
theorem SeeksLabel.blind_label (h : SeeksLabel keyword mark recognise) {label : List Char}
    (hlabel : mark ∉ label) (hending : ¬ keyword <:+ label) :
    Blind recognise (label ++ [mark]) := by
  have hnone (tail rest : List Char) (htail : tail <:+ label) :
      recognise (tail ++ mark :: rest) = none := by
    cases hfound : recognise (tail ++ mark :: rest) with
    | none => rfl
    | some x =>
      obtain ⟨rest', heq⟩ := h.found hfound
      -- neither text has a mark before the one shown, so the tail is the keyword
      have hbare : mark ∉ tail := fun hmem => hlabel (htail.mem hmem)
      obtain rfl := eq_of_append_cons_eq hbare h.bare heq
      exact absurd htail hending
  -- `hnone` covers every ending of the label, so the induction only has to walk down the label
  clear hlabel hending
  induction label with
  | nil => exact ⟨fun rest => hnone [] rest (List.suffix_refl _), trivial⟩
  | cons c label ih =>
    refine ⟨fun rest => ?_, ih fun tail rest htail =>
      hnone tail rest (htail.trans (List.suffix_cons _ _))⟩
    simpa using hnone (c :: label) rest (List.suffix_refl _)

end Blind

end SearchGateway.Text
