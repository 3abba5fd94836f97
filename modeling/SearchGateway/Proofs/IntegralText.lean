/-
  SearchGateway.Proofs.IntegralText

  Values whose numbers are integers.  Such a value is read from its text exactly: its
  strings and numbers are those of the text, and an object has the names of its members,
  in order, with the value of the last member that has the name.  It is written so that
  it is read back as it is.
-/
import SearchGateway.Proofs.IntegerText
import SearchGateway.Proofs.RecordParts
import SearchGateway.Proofs.ValueText

namespace SearchGateway.Json

open SearchGateway.Text.Utf8 (encode encodeChar_ascii encode_append encode_cons encode_nil)

/-! ## Texts without fractions -/

/-- The text of a JSON value whose numbers are all written as integers of 64 bits, with a sign or
    without.  A zero has no sign. -/
inductive IsIntegral : List UInt8 → Prop
  | nullWord : IsIntegral (wordText "null")
  | trueWord : IsIntegral (wordText "true")
  | falseWord : IsIntegral (wordText "false")
  | integer {s : String} {n : Int} (h : IsDecimal s n) (low : -0x8000000000000000 ≤ n)
      (high : n < 0x10000000000000000) : IsIntegral (encode s.toList)
  | string {body : List UInt8} (h : IsStringBody body) :
      IsIntegral ('"'.toUInt8 :: (body ++ ['"'.toUInt8]))
  | array (gap : Blanks) {items : List Spaced} (h : ∀ item ∈ items, IsIntegral item.text) :
      IsIntegral (arrayText gap items)
  | object (gap : Blanks) {members : List Member} (hkeys : ∀ m ∈ members, IsStringBody m.key.text)
      (h : ∀ m ∈ members, IsIntegral m.value.text) : IsIntegral (objectText gap members)

theorem IsIntegral.isValue {text : List UInt8} (h : IsIntegral text) : IsValue text := by
  induction h with
  | nullWord => exact .nullWord
  | trueWord => exact .trueWord
  | falseWord => exact .falseWord
  | integer h => exact h.isValue
  | string h => exact .string h
  | array gap _ ih => exact .array gap ih
  | object gap hkeys _ ih => exact .object gap hkeys ih

theorem IsDecimal.settles_front {s : String} {n : Int} (h : IsDecimal s n)
    (low : -0x8000000000000000 ≤ n) (high : n < 0x10000000000000000) :
    Settles front (encode s.toList) (some (.number (.int n))) := by
  rw [isDecimal_iff.mp h, String.toList_ofList]
  exact Json.settles_front fun _ hrest => toOption_eq_some_iff.mpr (front_intText low high hrest)

/-- The parts of an integral array or object are integral. -/
theorem IsIntegral.opens {text : List UInt8} (h : IsIntegral text) : Opens IsIntegral text := by
  cases h with
  | nullWord => exact .scalar settles_front_null (by simp)
  | trueWord => exact .scalar settles_front_true (by simp)
  | falseWord => exact .scalar settles_front_false (by simp)
  | integer h low high => exact .scalar (h.settles_front low high) (by simp)
  | string h =>
    obtain ⟨name, hname⟩ := exists_names h
    exact .scalar (settles_front_string hname) (by simp)
  | array gap h => exact .array gap h
  | object gap hkeys h => exact .object gap hkeys h

/-! ## What texts hold -/

/-- The text of the last part with a name. -/
def lastText (name : String) (parts : List Part) : Option (List UInt8) :=
  parts.reverse.lookup name

/-- An entry of an object is what is read from a part. -/
structure IsEntry (reads : List UInt8 → Value → Prop) (part : Part) (entry : String × Value) :
    Prop where
  name : part.1 = entry.1
  value : reads part.2 entry.2

/-- An integral text holds a value.  The names of an object are those of its members, in order, and
    each has the value of the last member with the name. -/
inductive HoldsValue : List UInt8 → Value → Prop
  | nullWord : HoldsValue (wordText "null") .null
  | trueWord : HoldsValue (wordText "true") (.bool true)
  | falseWord : HoldsValue (wordText "false") (.bool false)
  | integer {s : String} {n : Int} (h : IsDecimal s n) : HoldsValue (encode s.toList) (.ofInt n)
  | string {text : List UInt8} {s : String} (h : HoldsString text s) : HoldsValue text (.string s)
  | array (gap : Blanks) {items : List Spaced} {vs : List Value}
      (h : List.Forall₂ (fun item v => HoldsValue item.text v) items vs) :
      HoldsValue (arrayText gap items) (.array vs)
  | object (gap : Blanks) {ms : List Member} {parts : List Part} {entries : List (String × Value)}
      (hparts : List.Forall₂ Member.IsPart ms parts) (hsorted : SortedKeys entries)
      (hnames : ∀ name, name ∈ entries.map Prod.fst ↔ name ∈ parts.map Prod.fst)
      (h : ∀ entry ∈ entries, ∀ text ∈ lastText entry.1 parts, HoldsValue text entry.2) :
      HoldsValue (objectText gap ms) (.object entries)

/-- A value that is read back from what it is written as: it fits, and the members of every object
    in it are sorted. -/
structure Value.IsStable (depth : Nat) (v : Value) : Prop where
  fits : v.Fits depth
  sorted : v.sorted = v

namespace Value.IsStable

variable {depth : Nat}

theorem array {vs : List Value} (h : ∀ v ∈ vs, v.IsStable depth) :
    (Value.array vs).IsStable (depth + 1) where
  fits := .array fun v hv => (h v hv).fits
  sorted := by
    have hitems : sortedItems vs = vs := by
      rw [sortedItems_eq_map]
      exact (List.map_congr_left fun v hv => (h v hv).sorted).trans (List.map_id vs)
    rw [Value.sorted, hitems]

theorem object {ms : List (String × Value)} (hsorted : SortedKeys ms)
    (h : ∀ m ∈ ms, m.2.IsStable depth) : (Value.object ms).IsStable (depth + 1) where
  fits := .object fun m hm => (h m hm).fits
  sorted := by
    have hinside : sortedMembers ms = ms := by
      rw [sortedMembers_eq_map]
      have hmember : ∀ m ∈ ms, (m.1, m.2.sorted) = m := fun m hm => Prod.ext rfl (h m hm).sorted
      exact (List.map_congr_left hmember).trans (List.map_id ms)
    rw [Value.sorted, hinside, hsorted.sortMembers_eq]

/-- A stable value is read back as it is. -/
theorem reads {v : Value} (h : v.IsStable depth) : Reads (value depth) v v := by
  have hreads := h.fits.reads
  rwa [h.sorted] at hreads

/-- The members of a stable object are read back as they are. -/
theorem reads_map {ms : List (String × Value)} (h : (Value.object ms).IsStable depth) :
    Reads (map depth) (.object ms) ms := by
  intro rest hrest
  rw [← toOption_eq_some_iff, toOption_mapReader, h.reads rest hrest]
  rfl

end Value.IsStable

/-! ## Values that are read -/

/-- What a scalar is read as is what its front is. -/
theorem exists_found_of_isReadAs {text : List UInt8} {outcome : Option Found}
    (hfront : Settles front text outcome) {depth : Nat} {v : Value}
    (hread : IsReadAs (value depth) text v) :
    ∃ found array object, outcome = some found ∧
      takeValue array object found [] = .ok (v, []) := by
  have hvalue : ∃ array object, ∀ bytes, value depth bytes =
      (front bytes).bind fun found => takeValue array object found.1 found.2 := by
    cases depth with
    | zero => exact ⟨_, _, valueWith_eq_bind tooDeep tooDeep⟩
    | succ depth =>
      exact ⟨_, _, valueWith_eq_bind (arrayRest (value depth)) (objectRest (value depth))⟩
  obtain ⟨array, object, hvalue⟩ := hvalue
  have hbytes := hread .none delimited_nil
  have hfound := hfront .none delimited_nil
  rw [hvalue] at hbytes
  cases outcome with
  | none =>
    obtain ⟨fault, hfault⟩ := toOption_eq_none_iff.mp hfound
    rw [hfault] at hbytes
    cases hbytes
  | some found =>
    rw [toOption_eq_some_iff.mp hfound] at hbytes
    exact ⟨found, array, object, rfl, toOption_eq_some_iff.mp hbytes⟩

theorem exists_take_of_isReadAs {text : List UInt8} {found : Found}
    (hfront : Settles front text (some found)) {depth : Nat} {v : Value}
    (hread : IsReadAs (value depth) text v) :
    ∃ array object, takeValue array object found [] = .ok (v, []) := by
  obtain ⟨_, array, object, hfound, htake⟩ := exists_found_of_isReadAs hfront hread
  obtain rfl := Option.some.inj hfound
  exact ⟨array, object, htake⟩

/-- An array is read when its items are, one level further in. -/
theorem exists_of_isReadAs_array {gap : Blanks} {items : List Spaced}
    (hvalues : ∀ item ∈ items, IsValue item.text) {depth : Nat} {v : Value}
    (hread : IsReadAs (value depth) (arrayText gap items) v) :
    ∃ inner vs, depth = inner + 1 ∧ v = .array vs ∧
      List.Forall₂ (fun item v => IsReadAs (value inner) item.text v) items vs := by
  cases depth with
  | zero => cases toOption_take_of_settles (valueWith_eq_bind tooDeep tooDeep) hread
  | succ inner =>
    have htake := toOption_take_of_settles
      (valueWith_eq_bind (arrayRest (value inner)) (objectRest (value inner))) hread
    obtain ⟨vs, hvs, rfl⟩ := exists_of_map_pair (toOption_eq_some_iff.mp htake)
    exact ⟨inner, vs, rfl, rfl,
      (toOption_arrayRest_iff (settled_value inner) hvalues).mp (toOption_eq_some_iff.mpr hvs)⟩

theorem keyAhead_membersAt (first : Bool) (gap : Blanks) (m : Member) (ms : List Member)
    (rest : List UInt8) : keyAhead first (membersAt first gap (m :: ms) rest) =
      .ok (.item (m.opened ++ membersBehind ms rest)) := by
  cases first with
  | true =>
    show keyAhead true (objectInside gap (m :: ms) rest) = _
    rw [objectInside_cons, keyAhead_member]
  | false =>
    show keyAhead false (gap.val ++ membersBehind (m :: ms) rest) = _
    rw [membersBehind_cons, keyAhead_comma]

/-- The members of an object are put in one after the other, each as what its value is read as. -/
theorem exists_entries_of_members {item : Reader Value} (hitem : Settled item) {ms : List Member}
    (hms : ∀ m ∈ ms, m.WellFormed) {clock : List UInt8} (hclock : ms.length < clock.length)
    {first : Bool} {gap : Blanks} {taken all : List (String × Value)} {rest : List UInt8}
    (hread : members item clock first taken (membersAt first gap ms rest) = .ok (all, rest)) :
    ∃ parts entries, List.Forall₂ Member.IsPart ms parts ∧
      List.Forall₂ (IsEntry (IsReadAs item)) parts entries ∧
      all = entries.foldl (fun sorted m => insertMember m.1 m.2 sorted) taken := by
  induction ms generalizing clock first gap taken with
  | nil =>
    cases clock with
    | nil => exact absurd hclock (Nat.not_lt_zero _)
    | cons tick clock =>
      rw [membersAt_nil] at hread
      simp only [members, nextKey, keyAhead_closed, under, Except.mapError, Except.ok.injEq,
        Prod.mk.injEq, and_true] at hread
      exact ⟨[], [], .nil, .nil, hread.symm⟩
  | cons m ms ih =>
    rw [List.forall_mem_cons] at hms
    obtain ⟨name, hname⟩ := exists_names hms.1.key
    obtain ⟨outcome, hvalue⟩ := hitem m.value.text hms.1.value
    cases clock with
    | nil => exact absurd hclock (Nat.not_lt_zero _)
    | cons tick clock =>
      have hstep := toOption_members hname hvalue (keyAhead_membersAt first gap m ms rest)
        (delimited_membersBehind m.value.behind ms rest) tick clock taken
      rw [hread] at hstep
      cases name with
      | none => cases hstep
      | some name =>
        cases outcome with
        | none => cases hstep
        | some v =>
          have hrest : members item clock false (insertMember name v taken)
              (membersAt false m.value.behind ms rest) = .ok (all, rest) :=
            toOption_eq_some_iff.mp hstep.symm
          obtain ⟨parts, entries, hparts, hentries, rfl⟩ :=
            ih hms.2 (Nat.lt_of_succ_lt_succ hclock) hrest
          exact ⟨(name, m.value.text) :: parts, (name, v) :: entries,
            .cons ⟨hms.1, names_iff.mp hname, rfl⟩ hparts, .cons ⟨rfl, hvalue⟩ hentries, rfl⟩

/-- An object is read when its members are, one level further in. -/
theorem exists_of_isReadAs_object {gap : Blanks} {ms : List Member}
    (hms : ∀ m ∈ ms, m.WellFormed) {depth : Nat} {v : Value}
    (hread : IsReadAs (value depth) (objectText gap ms) v) :
    ∃ inner parts entries, depth = inner + 1 ∧ v = .object (sortMembers entries) ∧
      List.Forall₂ Member.IsPart ms parts ∧
      List.Forall₂ (IsEntry (IsReadAs (value inner))) parts entries := by
  cases depth with
  | zero => cases toOption_take_map_of_settles (valueWith_eq_bind tooDeep tooDeep) hread
  | succ inner =>
    have htake := toOption_take_map_of_settles
      (valueWith_eq_bind (arrayRest (value inner)) (objectRest (value inner))) hread
    obtain ⟨all, hall, rfl⟩ := exists_of_map_pair (toOption_eq_some_iff.mp htake)
    have hmembers : members (value inner) (0 :: objectInside gap ms []) true []
        (membersAt true gap ms []) = .ok (all, []) := hall
    have hclock : ms.length < (0 :: objectInside gap ms []).length :=
      Nat.lt_succ_of_le (length_le_objectInside gap ms [])
    obtain ⟨parts, entries, hparts, hentries, rfl⟩ :=
      exists_entries_of_members (settled_value inner) hms hclock hmembers
    exact ⟨inner, parts, entries, rfl, rfl, hparts, hentries⟩

/-! ## Members by name -/

theorem exists_lookup_of_entries {reads : List UInt8 → Value → Prop} {parts : List Part}
    {entries : List (String × Value)} (h : List.Forall₂ (IsEntry reads) parts entries)
    {name : String} {v : Value} (hv : entries.lookup name = some v) :
    ∃ text, parts.lookup name = some text ∧ reads text v := by
  induction h with
  | nil => cases hv
  | @cons part entry parts entries hpart _ ih =>
    obtain ⟨key, text⟩ := part
    obtain ⟨key', w⟩ := entry
    obtain ⟨rfl, hw⟩ := hpart
    rw [List.lookup_cons] at hv ⊢
    cases hname : name == key with
    | true =>
      rw [hname] at hv
      obtain rfl := Option.some.inj hv
      exact ⟨text, rfl, hw⟩
    | false =>
      rw [hname] at hv
      exact ih hv

/-- A member of sorted members is the one that is found under its key. -/
theorem SortedKeys.lookup_eq {ms : List (String × Value)} (h : SortedKeys ms) {m : String × Value}
    (hm : m ∈ ms) : ms.lookup m.1 = some m.2 := by
  induction ms with
  | nil => exact absurd hm List.not_mem_nil
  | cons first ms ih =>
    obtain ⟨k, w⟩ := first
    obtain ⟨hfirst, hrest⟩ := List.pairwise_cons.mp h
    rw [lookup_cons_eq_if]
    rcases List.mem_cons.mp hm with rfl | hm
    · exact if_pos rfl
    · have hlt : k < m.1 := hfirst m.1 (List.mem_map_of_mem hm)
      have hne : m.1 ≠ k := fun heq => String.lt_irrefl k (heq ▸ hlt)
      rw [if_neg hne, ih hrest hm]

/-- What is found in an object that has been read stands in the last part with the name. -/
theorem exists_lastText_of_mem {reads : List UInt8 → Value → Prop} {parts : List Part}
    {entries : List (String × Value)} (h : List.Forall₂ (IsEntry reads) parts entries)
    {entry : String × Value} (hentry : entry ∈ sortMembers entries) :
    ∃ text, lastText entry.1 parts = some text ∧ reads text entry.2 := by
  have hsorted : SortedKeys (sortMembers entries) :=
    @SortedKeys.foldl_insertMember entries [] List.Pairwise.nil
  have hlookup := lookup_foldl_insertMember entry.1 entries []
  rw [List.lookup_nil, Option.or_none] at hlookup
  have hlast : entries.reverse.lookup entry.1 = some entry.2 :=
    hlookup.symm.trans (hsorted.lookup_eq hentry)
  exact exists_lookup_of_entries (List.forall₂_reverse_iff.mpr h) hlast

/-! ## Integral values -/

/-- **Integral values are kept.**  What an integral text is read as is what it holds, and it is read
    back from what it is written as. -/
theorem IsIntegral.holdsValue {depth : Nat} {text : List UInt8} (h : IsIntegral text) {v : Value}
    (hread : IsReadAs (value depth) text v) : HoldsValue text v ∧ v.IsStable depth := by
  induction h generalizing depth v with
  | nullWord =>
    obtain ⟨_, _, htake⟩ := exists_take_of_isReadAs settles_front_null hread
    cases htake
    exact ⟨.nullWord, .null, rfl⟩
  | trueWord =>
    obtain ⟨_, _, htake⟩ := exists_take_of_isReadAs settles_front_true hread
    cases htake
    exact ⟨.trueWord, .bool, rfl⟩
  | falseWord =>
    obtain ⟨_, _, htake⟩ := exists_take_of_isReadAs settles_front_false hread
    cases htake
    exact ⟨.falseWord, .bool, rfl⟩
  | integer h low high =>
    obtain ⟨_, _, htake⟩ := exists_take_of_isReadAs (h.settles_front low high) hread
    cases htake
    exact ⟨.integer h, .int low high, rfl⟩
  | @string body hbody =>
    obtain ⟨name, hname⟩ := exists_names hbody
    obtain ⟨found, _, _, hfound, htake⟩ :=
      exists_found_of_isReadAs (settles_front_string hname) hread
    obtain ⟨s, rfl, rfl⟩ := Option.map_eq_some_iff.mp hfound
    cases htake
    exact ⟨.string ⟨body, rfl, names_iff.mp hname⟩, .string, rfl⟩
  | @array gap items hitems ih =>
    obtain ⟨inner, vs, rfl, rfl, hvs⟩ :=
      exists_of_isReadAs_array (fun item hitem => (hitems item hitem).isValue) hread
    have hholds : List.Forall₂ (fun item v => HoldsValue item.text v ∧ v.IsStable inner) items vs :=
      ((List.forall₂_and_left _ _).mpr ⟨ih, hvs⟩).imp fun _ _ h => h.1 h.2
    have hstable : ∀ v ∈ vs, v.IsStable inner := fun v hv => by
      obtain ⟨item, -, hitem⟩ := exists_of_mem_right hholds hv
      exact hitem.2
    exact ⟨.array gap (hholds.imp fun _ _ h => h.1), .array hstable⟩
  | @object gap ms hkeys hvalues ih =>
    obtain ⟨inner, parts, entries, rfl, rfl, hparts, hentries⟩ :=
      exists_of_isReadAs_object (fun m hm => ⟨hkeys m hm, (hvalues m hm).isValue⟩) hread
    have hread : ∀ part ∈ parts, ∀ v, IsReadAs (value inner) part.2 v →
        HoldsValue part.2 v ∧ v.IsStable inner := by
      intro part hpart v hv
      obtain ⟨m, hm, hmpart⟩ := exists_of_mem_right hparts hpart
      rw [← hmpart.text] at hv ⊢
      exact ih m hm hv
    have hholds : List.Forall₂ (IsEntry fun text v => HoldsValue text v ∧ v.IsStable inner)
        parts entries :=
      ((List.forall₂_and_left _ _).mpr ⟨hread, hentries⟩).imp fun _ _ h =>
        ⟨h.2.name, h.1 _ h.2.value⟩
    have hsorted : SortedKeys (sortMembers entries) :=
      @SortedKeys.foldl_insertMember entries [] List.Pairwise.nil
    have hnames : parts.map Prod.fst = entries.map Prod.fst := by
      rw [← List.forall₂_eq_eq_eq, List.forall₂_map_left_iff, List.forall₂_map_right_iff]
      exact hentries.imp fun _ _ h => h.name
    refine ⟨.object gap hparts hsorted (fun name => ?_) fun entry hentry text htext => ?_,
      .object hsorted fun entry hentry => ?_⟩
    · rw [sortMembers, mem_keys_foldl_insertMember, hnames]
      exact or_iff_right List.not_mem_nil
    · obtain ⟨text', htext', hentry', -⟩ := exists_lastText_of_mem hholds hentry
      obtain rfl := Option.some.inj (htext.symm.trans htext')
      exact hentry'
    · obtain ⟨text, -, -, hstable⟩ := exists_lastText_of_mem hholds hentry
      exact hstable

/-! ## Written values -/

end SearchGateway.Json
