/-
  SearchGateway.Proofs.NamedCollection

  Which collection query text names.  An identifier names its collection where it
  stands alone as a word, and the first such place decides, whatever stands behind it
  and whatever that names nothing stands in front of it.
-/
import SearchGateway.Proofs.Words
import SearchGateway.Query.Selection

namespace SearchGateway.Query

open SearchGateway.Text

/-! ## Identifiers as words -/

theorem Collection.isWord_id (collection : Collection) :
    ∀ c ∈ collection.id.toList, isWord c = true :=
  List.all_eq_true.mp (by cases collection <;> decide)

theorem Collection.id_ne_nil (collection : Collection) : collection.id.toList ≠ [] := by
  cases collection <;> decide

/-- The collection that a word names. -/
def namedBy? (word : List Char) : Option Collection :=
  Collection.ofId? (String.ofList word)

theorem namedBy?_id (collection : Collection) :
    namedBy? collection.id.toList = some collection := by
  rw [namedBy?, String.ofList_toList, Collection.ofId?_id]

theorem eq_id_of_namedBy? {word : List Char} {collection : Collection}
    (h : namedBy? word = some collection) : word = collection.id.toList := by
  rw [Collection.id_of_ofId? h, String.toList_ofList]

/-- A text names a collection behind a piece of it: the identifier stands alone there. -/
def NamesAt (cs before : List Char) (collection : Collection) : Prop :=
  StandsAlone cs before collection.id.toList

/-! ## The first name -/

/-- The collection that the words of a text name. -/
def named? (cs : List Char) : Option Collection :=
  (words cs).findSome? namedBy?

theorem detectCollection_eq (raw : String) :
    detectCollection raw = match named? raw.toList with
      | some collection => .ok collection
      | none => .error .missingCollection := rfl

theorem detectCollection_eq_ok_iff {raw : String} {collection : Collection} :
    detectCollection raw = .ok collection ↔ named? raw.toList = some collection := by
  rw [detectCollection_eq]
  cases named? raw.toList <;> simp

theorem detectCollection_eq_error_iff {raw : String} :
    detectCollection raw = .error .missingCollection ↔ named? raw.toList = none := by
  rw [detectCollection_eq]
  cases named? raw.toList <;> simp

/-- Texts that do not touch in a word are searched one behind the other. -/
theorem named?_append {first second : List Char} (h : EndsOutside first ∨ StartsOutside second) :
    named? (first ++ second) = (named? first).or (named? second) := by
  rw [named?, words_append_of_outside h, List.findSome?_append]
  rfl

theorem named?_eq_none_iff {cs : List Char} :
    named? cs = none ↔ ∀ collection before, ¬ NamesAt cs before collection := by
  rw [named?, List.findSome?_eq_none_iff]
  constructor
  · intro hnone collection before hnames
    have hmem := (mem_words_iff collection.id_ne_nil collection.isWord_id).mpr ⟨before, hnames⟩
    exact nomatch (namedBy?_id collection).symm.trans (hnone _ hmem)
  · intro hnone word hmem
    cases hfound : namedBy? word with
    | none => rfl
    | some collection =>
      rw [eq_id_of_namedBy? hfound] at hmem
      obtain ⟨before, hnames⟩ :=
        (mem_words_iff collection.id_ne_nil collection.isWord_id).mp hmem
      exact absurd hnames (hnone collection before)

/-- No identifier stands alone in front of the first one, so none does in the text before it. -/
theorem named?_before_eq_none {before rest : List Char} (hbefore : EndsOutside before)
    (hfirst : ∀ other earlier, NamesAt (before ++ rest) earlier other →
      before.length ≤ earlier.length) : named? before = none := by
  rw [named?_eq_none_iff]
  intro other earlier hnames
  obtain ⟨hwhole, hlt⟩ := StandsAlone.append hnames other.id_ne_nil other.isWord_id hbefore rest
  exact Nat.not_le_of_lt hlt (hfirst other earlier hwhole)

theorem named?_eq_some_iff {cs : List Char} {collection : Collection} :
    named? cs = some collection ↔
      ∃ before, NamesAt cs before collection ∧
        ∀ other earlier, NamesAt cs earlier other → before.length ≤ earlier.length := by
  constructor
  · intro hsome
    obtain ⟨front, word, rear, hwords, hfound, hfront⟩ := List.findSome?_eq_some_iff.mp hsome
    obtain rfl := eq_id_of_namedBy? hfound
    obtain ⟨before, behind, rfl, hbefore, hbehind, rfl⟩ := exists_parts_of_words hwords
    refine ⟨before, ⟨behind, rfl, hbefore, hbehind⟩, fun other earlier hnames => ?_⟩
    refine Nat.le_of_not_lt fun hlt => ?_
    have halone := StandsAlone.of_lt hnames other.isWord_id hbefore hlt
    have hmem := (mem_words_iff other.id_ne_nil other.isWord_id).mpr ⟨earlier, halone⟩
    exact nomatch (namedBy?_id other).symm.trans (hfront _ hmem)
  · rintro ⟨before, ⟨behind, rfl, hbefore, hbehind⟩, hfirst⟩
    rw [named?_append (.inl hbefore), named?_before_eq_none hbefore hfirst, Option.none_or, named?,
      ← List.nil_append (collection.id.toList ++ behind),
      words_of_parts collection.id_ne_nil collection.isWord_id endsOutside_nil hbehind]
    simp [words, wordsOnto, namedBy?_id]

/-! ## The answer -/

/-- Query text names the collection whose identifier is the first one to stand alone in it, and it
    names none only if no identifier stands alone anywhere.  The answer does not change when text
    that does not start with a word character is put behind, nor when text that does not end in one
    and names nothing is put in front. -/
theorem detectCollection_first (raw : String) :
    (∀ collection, detectCollection raw = .ok collection ↔
      ∃ before behind, raw.toList = before ++ (collection.id.toList ++ behind) ∧
        EndsOutside before ∧ StartsOutside behind ∧
        ∀ other earlier, NamesAt raw.toList earlier other → before.length ≤ earlier.length) ∧
      (detectCollection raw = .error .missingCollection ↔
        ∀ collection before, ¬ NamesAt raw.toList before collection) ∧
      (∀ collection behind, detectCollection raw = .ok collection →
        StartsOutside behind.toList → detectCollection (raw ++ behind) = .ok collection) ∧
      ∀ before, detectCollection before = .error .missingCollection → EndsOutside before.toList →
        detectCollection (before ++ raw) = detectCollection raw := by
  refine ⟨fun collection => ?_, ?_, fun collection behind hnamed hbehind => ?_,
    fun before hnone hbefore => ?_⟩
  · rw [detectCollection_eq_ok_iff, named?_eq_some_iff]
    constructor
    · rintro ⟨before, ⟨behind, hraw, hbefore, hbehind⟩, hfirst⟩
      exact ⟨before, behind, hraw, hbefore, hbehind, hfirst⟩
    · rintro ⟨before, behind, hraw, hbefore, hbehind, hfirst⟩
      exact ⟨before, ⟨behind, hraw, hbefore, hbehind⟩, hfirst⟩
  · rw [detectCollection_eq_error_iff, named?_eq_none_iff]
  · rw [detectCollection_eq_ok_iff] at hnamed ⊢
    rw [String.toList_append, named?_append (.inr hbehind), hnamed, Option.some_or]
  · rw [detectCollection_eq_error_iff] at hnone
    rw [detectCollection_eq, detectCollection_eq, String.toList_append, named?_append (.inl hbefore),
      hnone, Option.none_or]

/-- Identifiers inside other words name nothing, also beside an underscore or a letter of another
    script. -/
example : detectCollection "éemails line_items_x: contacts, deals" = .ok .contacts := by
  rfl

end SearchGateway.Query
