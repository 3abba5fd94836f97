/-
  SearchGateway.Proofs.ValueText

  The text of a value that is no deeper than may be read and whose numbers are
  integers of 64 bits.  It is one line of visible characters, and it is read as the
  value with the members of every object sorted by key.
-/
import SearchGateway.Proofs.Members
import SearchGateway.Proofs.Reading

namespace SearchGateway.Json

open SearchGateway.Text.Utf8

/-! ## Sorted members -/

theorem mem_of_mem_insertMember {key : String} {v : Value} {ms : List (String × Value)}
    {m : String × Value} (h : m ∈ insertMember key v ms) : m = (key, v) ∨ m ∈ ms := by
  induction ms with
  | nil => exact .inl (List.mem_singleton.mp h)
  | cons first ms ih =>
    obtain ⟨k, w⟩ := first
    rw [insertMember] at h
    split at h
    · exact List.mem_cons.mp h
    · split at h
      · exact (List.mem_cons.mp h).imp_right (List.mem_cons_of_mem _)
      · rcases List.mem_cons.mp h with rfl | h
        · exact .inr List.mem_cons_self
        · exact (ih h).imp_right (List.mem_cons_of_mem _)

theorem mem_of_mem_foldl_insertMember {ms taken : List (String × Value)} {m : String × Value}
    (h : m ∈ ms.foldl (fun sorted m => insertMember m.1 m.2 sorted) taken) :
    m ∈ taken ∨ m ∈ ms := by
  induction ms generalizing taken with
  | nil => exact .inl h
  | cons first ms ih =>
    rcases ih h with h | h
    · rcases mem_of_mem_insertMember h with rfl | h
      · exact .inr List.mem_cons_self
      · exact .inl h
    · exact .inr (List.mem_cons_of_mem _ h)

/-- Sorting adds no members. -/
theorem mem_of_mem_sortMembers {ms : List (String × Value)} {m : String × Value}
    (h : m ∈ sortMembers ms) : m ∈ ms :=
  (mem_of_mem_foldl_insertMember h).resolve_left List.not_mem_nil

/-- A key behind all others goes to the end. -/
theorem insertMember_of_lt {key : String} {ms : List (String × Value)}
    (h : ∀ k ∈ ms.map Prod.fst, k < key) (v : Value) :
    insertMember key v ms = ms ++ [(key, v)] := by
  induction ms with
  | nil => rfl
  | cons m ms ih =>
    obtain ⟨k, w⟩ := m
    rw [List.map_cons, List.forall_mem_cons] at h
    have hnotLt : ¬ key < k := fun hlt => String.lt_irrefl key (String.lt_trans hlt h.1)
    have hne : key ≠ k := by
      rintro rfl
      exact String.lt_irrefl key h.1
    rw [insertMember, if_neg hnotLt, if_neg hne, ih h.2, List.cons_append]

/-- Members in order are put in as they stand. -/
theorem SortedKeys.foldl_insertMember_eq {ms taken : List (String × Value)}
    (h : SortedKeys (taken ++ ms)) :
    ms.foldl (fun sorted m => Json.insertMember m.1 m.2 sorted) taken = taken ++ ms := by
  induction ms generalizing taken with
  | nil => exact (List.append_nil taken).symm
  | cons m ms ih =>
    have hlast : ∀ k ∈ taken.map Prod.fst, k < m.1 := by
      intro k hk
      rw [SortedKeys, List.map_append] at h
      exact (List.pairwise_append.mp h).2.2 k hk m.1 List.mem_cons_self
    have hassoc : taken ++ m :: ms = (taken ++ [m]) ++ ms := by
      rw [List.append_assoc, List.singleton_append]
    rw [hassoc] at h ⊢
    rw [List.foldl_cons, insertMember_of_lt hlast, ih h]

/-- Sorted members stay as they are. -/
theorem SortedKeys.sortMembers_eq {ms : List (String × Value)} (h : SortedKeys ms) :
    sortMembers ms = ms :=
  @SortedKeys.foldl_insertMember_eq ms [] h

/-! ## Values that fit -/

/-- A value with at most so many levels of arrays and objects, whose numbers are integers of 64
    bits, with a sign or without. -/
inductive Value.Fits : Nat → Value → Prop
  | null {depth : Nat} : Fits depth .null
  | bool {depth : Nat} {b : Bool} : Fits depth (.bool b)
  | int {depth : Nat} {n : Int} (low : -0x8000000000000000 ≤ n) (high : n < 0x10000000000000000) :
      Fits depth (.ofInt n)
  | string {depth : Nat} {s : String} : Fits depth (.string s)
  | array {depth : Nat} {vs : List Value} (items : ∀ v ∈ vs, Fits depth v) :
      Fits (depth + 1) (.array vs)
  | object {depth : Nat} {ms : List (String × Value)} (members : ∀ m ∈ ms, Fits depth m.2) :
      Fits (depth + 1) (.object ms)

namespace Value.Fits

variable {depth : Nat} {v : Value}

theorem mono {larger : Nat} (h : v.Fits depth) (hle : depth ≤ larger) : v.Fits larger := by
  induction h generalizing larger with
  | null => exact .null
  | bool => exact .bool
  | int low high => exact .int low high
  | string => exact .string
  | array _ ih =>
    obtain ⟨more, rfl⟩ := Nat.exists_eq_add_of_le' (Nat.one_le_of_lt hle)
    exact .array fun v hv => ih v hv (Nat.le_of_succ_le_succ hle)
  | object _ ih =>
    obtain ⟨more, rfl⟩ := Nat.exists_eq_add_of_le' (Nat.one_le_of_lt hle)
    exact .object fun m hm => ih m hm (Nat.le_of_succ_le_succ hle)

/-- Sorting keeps what fits. -/
theorem sorted (h : v.Fits depth) : v.sorted.Fits depth := by
  induction h with
  | null => exact .null
  | bool => exact .bool
  | int low high => exact .int low high
  | string => exact .string
  | array _ ih =>
    rw [Value.sorted, sortedItems_eq_map]
    refine .array fun v hv => ?_
    obtain ⟨w, hw, rfl⟩ := List.mem_map.mp hv
    exact ih w hw
  | object _ ih =>
    rw [Value.sorted, sortedMembers_eq_map]
    refine .object fun m hm => ?_
    obtain ⟨m', hm', rfl⟩ := List.mem_map.mp (mem_of_mem_sortMembers hm)
    exact ih m' hm'

/-- Sorting again changes nothing. -/
theorem sorted_sorted (h : v.Fits depth) : v.sorted.sorted = v.sorted := by
  induction h with
  | null | bool | int | string => rfl
  | array _ ih =>
    rw [Value.sorted, Value.sorted, sortedItems_eq_map, sortedItems_eq_map, List.map_map]
    exact congrArg Value.array (List.map_congr_left ih)
  | @object depth ms _ ih =>
    have hsorted : SortedKeys (sortMembers (sortedMembers ms)) :=
      @SortedKeys.foldl_insertMember (sortedMembers ms) [] List.Pairwise.nil
    -- the values inside are sorted already, and so are the keys
    have hinside : sortedMembers (sortMembers (sortedMembers ms)) =
        sortMembers (sortedMembers ms) := by
      rw [sortedMembers_eq_map]
      refine (List.map_congr_left fun m hm => ?_).trans (List.map_id _)
      have hmem := mem_of_mem_sortMembers hm
      rw [sortedMembers_eq_map] at hmem
      obtain ⟨m', hm', rfl⟩ := List.mem_map.mp hmem
      exact Prod.ext rfl (ih m' hm')
    rw [Value.sorted, Value.sorted, hinside, hsorted.sortMembers_eq]

end Value.Fits

/-! ## Characters -/

/-- A text on one line: none of its characters is below a space. -/
def OneLine (cs : List Char) : Prop :=
  ∀ c ∈ cs, 0x20 ≤ c.toNat

instance (cs : List Char) : Decidable (OneLine cs) :=
  List.decidableBAll (fun c : Char => 0x20 ≤ c.toNat) cs

theorem OneLine.append {cs ds : List Char} (hcs : OneLine cs) (hds : OneLine ds) :
    OneLine (cs ++ ds) :=
  List.forall_mem_append.mpr ⟨hcs, hds⟩

theorem OneLine.cons {c : Char} {cs : List Char} (hc : 0x20 ≤ c.toNat) (hcs : OneLine cs) :
    OneLine (c :: cs) :=
  List.forall_mem_cons.mpr ⟨hc, hcs⟩

theorem OneLine.flatMap {α : Type} {xs : List α} {text : α → List Char}
    (h : ∀ x ∈ xs, OneLine (text x)) : OneLine (xs.flatMap text) := by
  intro c hc
  obtain ⟨x, hx, hc⟩ := List.mem_flatMap.mp hc
  exact h x hx c hc

theorem oneLine_intText (n : Int) : OneLine (intText n) := by
  have hdigits : OneLine (Nat.toDigits 10 n.natAbs) := fun c hc =>
    of_mem_toDigits (p := fun c => 0x20 ≤ c.toNat) (by decide) hc
  unfold intText
  split
  · exact hdigits.cons (by decide)
  · exact hdigits

/-- An escaped character is on one line, because what is below a space is escaped. -/
theorem oneLine_escapeChar (c : Char) : OneLine (escapeChar c) := by
  have hhex : ∀ n < 16, 0x20 ≤ (hexDigit n).toNat := by decide
  unfold escapeChar
  split_ifs with _ _ _ _ _ _ _ hlow
  any_goals decide
  · have hhigh : 0x20 ≤ (hexDigit (c.toNat / 16)).toNat := hhex _ (by omega)
    have hdigit : 0x20 ≤ (hexDigit (c.toNat % 16)).toNat := hhex _ (Nat.mod_lt _ (by decide))
    have hfront : OneLine ['\\', 'u', '0', '0'] := by decide
    exact hfront.append (.cons hhigh (.cons hdigit (List.forall_mem_nil _)))
  · exact .cons (Nat.le_of_not_lt hlow) (List.forall_mem_nil _)

theorem oneLine_stringText (s : String) : OneLine (stringText s) :=
  .cons (by decide) (OneLine.append (.flatMap fun c _ => oneLine_escapeChar c)
    (.cons (by decide) (List.forall_mem_nil _)))

theorem oneLine_commaSeparated {texts : List (List Char)} (h : ∀ text ∈ texts, OneLine text) :
    OneLine (commaSeparated texts) := by
  cases texts with
  | nil => exact List.forall_mem_nil _
  | cons text texts =>
    rw [List.forall_mem_cons] at h
    exact h.1.append (.flatMap fun t ht => (h.2 t ht).cons (by decide))

theorem itemTexts_eq_map (vs : List Value) : itemTexts vs = vs.map Value.text := by
  induction vs with
  | nil => rfl
  | cons v vs ih => rw [itemTexts, ih, List.map_cons]

theorem memberTexts_eq_map (ms : List (String × Value)) :
    memberTexts ms = ms.map fun m => stringText m.1 ++ ':' :: m.2.text := by
  induction ms with
  | nil => rfl
  | cons m ms ih => rw [memberTexts, ih, List.map_cons]

/-- The text of a value that fits is on one line, whatever its texts and its keys are. -/
theorem Value.Fits.oneLine {depth : Nat} {v : Value} (h : v.Fits depth) : OneLine v.text := by
  induction h with
  | null => decide
  | @bool depth b => cases b <;> decide
  | @int depth n _ _ => exact oneLine_intText n
  | string => exact oneLine_stringText _
  | array _ ih =>
    rw [Value.text, itemTexts_eq_map]
    refine .cons (by decide) ((oneLine_commaSeparated fun text htext => ?_).append
      (.cons (by decide) (List.forall_mem_nil _)))
    obtain ⟨v, hv, rfl⟩ := List.mem_map.mp htext
    exact ih v hv
  | object _ ih =>
    rw [Value.text, memberTexts_eq_map]
    refine .cons (by decide) ((oneLine_commaSeparated fun text htext => ?_).append
      (.cons (by decide) (List.forall_mem_nil _)))
    obtain ⟨m, hm, rfl⟩ := List.mem_map.mp htext
    exact (oneLine_stringText m.1).append ((ih m hm).cons (by decide))

/-! ## Reading back -/

/-- The members after the first, up to the closing bracket. -/
theorem members_tail {item : Reader Value} {ms ms' : List (String × Value)}
    (h : List.Forall₂ (fun m m' => m.1 = m'.1 ∧ Reads item m.2 m'.2) ms ms')
    {clock : List UInt8} (hclock : ms.length < clock.length) (taken : List (String × Value))
    (rest : List UInt8) :
    members item clock false taken
        (encode ((memberTexts ms).flatMap (',' :: ·)) ++ '\x7d'.toUInt8 :: rest) =
      .ok (ms'.foldl (fun sorted m => insertMember m.1 m.2 sorted) taken, rest) := by
  induction h generalizing clock taken with
  | nil =>
    cases clock with
    | nil => simp at hclock
    | cons tick clock =>
      simp only [memberTexts, List.flatMap_nil, encode_nil, List.nil_append, members, nextKey,
        keyAhead_close, under, Except.mapError, List.foldl_nil]
  | @cons m m' ms ms' hm _ ih =>
    obtain ⟨key, v⟩ := m
    obtain ⟨key', v'⟩ := m'
    obtain ⟨rfl, hread⟩ := hm
    cases clock with
    | nil => simp at hclock
    | cons tick clock =>
      have hvalue := memberValue_text hread key
        (delimited_tail (memberTexts ms) delimited_brace rest)
      rw [memberTexts, encode_tail_cons, encode_memberText]
      simp only [members, nextKey_next, under, Except.mapError, hvalue]
      rw [ih (by simpa using hclock), List.foldl_cons]

/-- The members of a written object are read one after the other. -/
theorem objectRest_text {item : Reader Value} {ms ms' : List (String × Value)}
    (h : List.Forall₂ (fun m m' => m.1 = m'.1 ∧ Reads item m.2 m'.2) ms ms')
    (rest : List UInt8) :
    objectRest item (encode (commaSeparated (memberTexts ms)) ++ '\x7d'.toUInt8 :: rest) =
      .ok (sortMembers ms', rest) := by
  cases h with
  | nil => rfl
  | @cons m m' ms ms' hm hms =>
    obtain ⟨key, v⟩ := m
    obtain ⟨key', v'⟩ := m'
    obtain ⟨rfl, hread⟩ := hm
    have hvalue := memberValue_text hread key
      (delimited_tail (memberTexts ms) delimited_brace rest)
    have hclock := length_lt_tail (memberTexts ms) '\x7d'.toUInt8 rest
    rw [length_memberTexts] at hclock
    rw [memberTexts, commaSeparated, encode_append, List.append_assoc, encode_memberText]
    simp only [objectRest, members, nextKey_first, under, Except.mapError, hvalue]
    rw [members_tail hms ?clock]
    case clock =>
      simp only [List.length_append, List.length_cons] at hclock ⊢
      omega
    rfl

/-- **Written values are read back.**  The text of a value that fits is read as the value with the
    members of every object sorted by key, of which the last with a key stays. -/
theorem Value.Fits.reads {depth : Nat} {v : Value} (h : v.Fits depth) :
    Reads (value depth) v v.sorted := by
  induction h with
  | @null depth =>
    intro rest _
    have hfront : front (encode Value.null.text ++ rest) = .ok (.null, rest) := rfl
    cases depth <;> simp only [value, valueWith, hfront] <;> rfl
  | @bool depth b =>
    intro rest _
    have hfront : front (encode (Value.bool b).text ++ rest) = .ok (.bool b, rest) := by
      cases b <;> rfl
    cases depth <;> simp only [value, valueWith, hfront] <;> rfl
  | @int depth n low high =>
    intro rest hrest
    have hfront : front (encode (Value.ofInt n).text ++ rest) = .ok (.number (.int n), rest) :=
      front_intText low high hrest
    cases depth <;> simp only [value, valueWith, hfront] <;> rfl
  | @string depth s =>
    intro rest _
    cases depth <;> simp only [value, valueWith, front_string] <;> rfl
  | @array depth vs _ ih =>
    intro rest _
    have hitems : List.Forall₂ (Reads (value depth)) vs (sortedItems vs) := by
      rw [sortedItems_eq_map, List.forall₂_map_right_iff, List.forall₂_same]
      exact ih
    simp only [value, valueWith, front_array, arrayRest_text hitems, Value.sorted]
    rfl
  | @object depth ms _ ih =>
    intro rest _
    have hmembers : List.Forall₂ (fun m m' => m.1 = m'.1 ∧ Reads (value depth) m.2 m'.2) ms
        (sortedMembers ms) := by
      rw [sortedMembers_eq_map, List.forall₂_map_right_iff, List.forall₂_same]
      exact fun m hm => ⟨rfl, ih m hm⟩
    simp only [value, valueWith, front_object, objectRest_text hmembers, Value.sorted]
    rfl

/-- A sorted value that fits is read back from its line as it is. -/
theorem Value.Fits.read_line {v : Value} (h : v.Fits maxDepth) :
    read value (ofString (v.sorted.print ++ "\n")) = .ok v.sorted := by
  have hnewline : ofString "\n" = ['\n'.toUInt8] := rfl
  have hreads := h.sorted.reads ['\n'.toUInt8] (delimited_cons.mpr (by decide))
  have hbytes : ofString (v.sorted.print ++ "\n") = encode v.sorted.text ++ ['\n'.toUInt8] := by
    rw [ofString, String.toList_append, encode_append, Value.print, String.toList_ofList]
    rfl
  rw [h.sorted_sorted] at hreads
  rw [read, hbytes, hreads]
  rfl

end SearchGateway.Json
