/-
  SearchGateway.Proofs.FirstPlaces

  Where a scan finds what it looks for: at the first place at which its recogniser has
  an answer, among the places that it looks at.
-/
import SearchGateway.Proofs.Words

namespace SearchGateway.Text

variable {α : Type} {recognise : List Char → Option α} {admits : List Char → Prop}

/-! ## Places -/

/-- The first place of a text, among those that are admitted by the text before them, at which a
    recogniser has an answer. -/
structure FirstPlace (admits : List Char → Prop) (recognise : List Char → Option α)
    (cs before rest : List Char) (x : α) : Prop where
  eq : cs = before ++ rest
  admitted : admits before
  found : recognise rest = some x
  first : ∀ earlier later, cs = earlier ++ later → admits earlier →
    earlier.length < before.length → recognise later = none

theorem exists_firstPlace_nil_iff {x : α} :
    (∃ before rest, FirstPlace admits recognise [] before rest x) ↔
      admits [] ∧ recognise [] = some x := by
  constructor
  · rintro ⟨before, rest, hplace⟩
    obtain ⟨rfl, rfl⟩ := List.append_eq_nil_iff.mp hplace.eq.symm
    exact ⟨hplace.admitted, hplace.found⟩
  · rintro ⟨hadmits, hfound⟩
    exact ⟨[], [], rfl, hadmits, hfound, fun _ _ _ _ hlt => absurd hlt (Nat.not_lt_zero _)⟩

/-- The first place is here, or it is the first one behind the first character. -/
theorem exists_firstPlace_cons_iff {c : Char} {cs : List Char} {x : α} :
    (∃ before rest, FirstPlace admits recognise (c :: cs) before rest x) ↔
      (admits [] ∧ recognise (c :: cs) = some x) ∨
        ((admits [] → recognise (c :: cs) = none) ∧
          ∃ before rest, FirstPlace (fun before => admits (c :: before)) recognise cs before rest
            x) := by
  constructor
  · rintro ⟨before, rest, hplace⟩
    cases before with
    | nil =>
      obtain rfl : c :: cs = rest := hplace.eq
      exact .inl ⟨hplace.admitted, hplace.found⟩
    | cons d before =>
      obtain ⟨rfl, hcs⟩ := List.cons.inj hplace.eq
      refine .inr ⟨fun hadmits => hplace.first [] (c :: cs) rfl hadmits (Nat.succ_pos _),
        before, rest, hcs, hplace.admitted, hplace.found, fun earlier later heq hadmits hlt => ?_⟩
      exact hplace.first (c :: earlier) later (by rw [heq, List.cons_append]) hadmits
        (Nat.succ_lt_succ hlt)
  · rintro (⟨hadmits, hfound⟩ | ⟨hnone, before, rest, hplace⟩)
    · exact ⟨[], c :: cs, rfl, hadmits, hfound, fun _ _ _ _ hlt => absurd hlt (Nat.not_lt_zero _)⟩
    · refine ⟨c :: before, rest, by rw [hplace.eq, List.cons_append], hplace.admitted, hplace.found,
        fun earlier later heq hadmits hlt => ?_⟩
      cases earlier with
      | nil =>
        obtain rfl : c :: cs = later := heq
        exact hnone hadmits
      | cons d earlier =>
        obtain ⟨rfl, hcs⟩ := List.cons.inj heq
        exact hplace.first earlier later hcs hadmits (Nat.lt_of_succ_lt_succ hlt)

/-- What holds of all places of a text holds here and of all places behind the first character. -/
theorem forall_places_cons_iff {p : List Char → List Char → Prop} {c : Char} {cs : List Char} :
    (∀ before rest, c :: cs = before ++ rest → p before rest) ↔
      p [] (c :: cs) ∧ ∀ before rest, cs = before ++ rest → p (c :: before) rest := by
  constructor
  · intro h
    exact ⟨h [] _ rfl, fun before rest heq => h (c :: before) rest (by rw [heq, List.cons_append])⟩
  · rintro ⟨hhere, hbehind⟩ before rest heq
    cases before with
    | nil =>
      obtain rfl : c :: cs = rest := heq
      exact hhere
    | cons d before =>
      obtain ⟨rfl, hcs⟩ := List.cons.inj heq
      exact hbehind before rest hcs

/-! ## Scans -/

theorem firstMatch_eq_some_iff {cs : List Char} {x : α} :
    firstMatch recognise cs = some x ↔
      ∃ before rest, FirstPlace (fun _ => True) recognise cs before rest x := by
  induction cs with
  | nil =>
    rw [exists_firstPlace_nil_iff, true_and]
    rfl
  | cons c cs ih =>
    rw [exists_firstPlace_cons_iff, ← ih, firstMatch]
    cases recognise (c :: cs) <;> simp

theorem firstMatch_eq_none_iff {cs : List Char} :
    firstMatch recognise cs = none ↔
      ∀ before rest, cs = before ++ rest → recognise rest = none := by
  induction cs with
  | nil => simp [firstMatch]
  | cons c cs ih =>
    rw [forall_places_cons_iff (p := fun _ rest => recognise rest = none), ← ih, firstMatch]
    cases recognise (c :: cs) <;> simp

/-- The scan outside words looks at the places that do not follow a word character. -/
theorem firstMatchOutsideWord_eq_some_iff {inWord : Bool} {cs : List Char} {x : α} :
    firstMatchOutsideWord recognise inWord cs = some x ↔
      ∃ before rest, FirstPlace (fun before => endsInWord inWord before = false) recognise cs
        before rest x := by
  induction cs generalizing inWord with
  | nil =>
    rw [exists_firstPlace_nil_iff]
    cases inWord <;> simp [firstMatchOutsideWord, endsInWord]
  | cons c cs ih =>
    -- whether the places behind are admitted is up to the character alone
    have hbehind : (fun before => endsInWord inWord (c :: before) = false) =
        fun before => endsInWord (isWord c) before = false := rfl
    rw [exists_firstPlace_cons_iff, hbehind, ← ih, firstMatchOutsideWord]
    cases inWord
    · cases recognise (c :: cs) <;> simp [endsInWord]
    · simp [endsInWord]

/-- From the start of a text, the places are those whose text does not end in a word character. -/
theorem firstMatchOutsideWord_false_eq_some_iff {cs : List Char} {x : α} :
    firstMatchOutsideWord recognise false cs = some x ↔
      ∃ before rest, FirstPlace EndsOutside recognise cs before rest x := by
  simp only [firstMatchOutsideWord_eq_some_iff, endsInWord_eq_false_iff]

/-! ## Keywords -/

/-- A keyword whose first character stands nowhere else in it does not overlap with itself: where it
    starts in front of a place of its own, it is over before that place. -/
theorem infix_of_lt {k : Char} {keyword front earlier rest rest' : List Char} (hk : k ∉ keyword)
    (heq : front ++ (k :: keyword ++ rest) = earlier ++ (k :: keyword ++ rest'))
    (hlt : earlier.length < front.length) : k :: keyword <:+: front := by
  obtain ⟨tail, rfl⟩ : earlier <+: front :=
    List.prefix_of_prefix_length_le ⟨_, heq.symm⟩ (List.prefix_append _ _) (Nat.le_of_lt hlt)
  rw [List.append_assoc, List.append_cancel_left_eq] at heq
  rcases List.append_eq_append_iff.mp heq with ⟨reach, hkeyword, hrest⟩ | ⟨gap, rfl, -⟩
  · cases reach with
    | nil => exact ⟨earlier, [], by simp [hkeyword]⟩
    | cons d reach =>
      -- the first character would stand in the keyword again
      obtain rfl : k = d := (List.cons.inj hrest).1
      cases tail with
      | nil => simp at hlt
      | cons e tail =>
        obtain ⟨-, rfl⟩ := List.cons.inj hkeyword
        simp at hk
  · exact ⟨earlier, gap, by simp⟩

end SearchGateway.Text
