/-
  SearchGateway.Proofs.Members

  Sorting the members of an object: as long as no key comes twice, it only changes
  their order.  Putting members in one after the other keeps the keys in order, and
  the last member with a key is the one that is found under it.
-/
import SearchGateway.Json.Value
import Mathlib.Data.List.Perm.Basic

namespace SearchGateway.Json

/-- A member with a new key is added. -/
theorem insertMember_perm {key : String} {ms : List (String × Value)}
    (hkey : key ∉ ms.map Prod.fst) (v : Value) :
    (insertMember key v ms).Perm ((key, v) :: ms) := by
  induction ms with
  | nil => exact .refl _
  | cons m ms ih =>
    obtain ⟨k, w⟩ := m
    simp only [List.map_cons, List.mem_cons, not_or] at hkey
    rw [insertMember]
    split
    · exact .refl _
    · rw [if_neg hkey.1]
      exact ((ih hkey.2).cons (k, w)).trans (.swap (key, v) (k, w) ms)

/-- Putting members with new and different keys into sorted members adds all of them. -/
theorem foldl_insertMember_perm {ms : List (String × Value)} (sorted : List (String × Value))
    (hnodup : (ms.map Prod.fst).Nodup)
    (hfresh : ∀ key ∈ ms.map Prod.fst, key ∉ sorted.map Prod.fst) :
    (ms.foldl (fun sorted m => insertMember m.1 m.2 sorted) sorted).Perm (ms ++ sorted) := by
  induction ms generalizing sorted with
  | nil => exact .refl _
  | cons m ms ih =>
    simp only [List.map_cons, List.nodup_cons] at hnodup
    -- the keys that are left stay new when the first member is put in
    have hm : m.1 ∉ sorted.map Prod.fst := hfresh m.1 List.mem_cons_self
    have hinsert : (insertMember m.1 m.2 sorted).Perm (m :: sorted) := insertMember_perm hm m.2
    have hfresh' : ∀ key ∈ ms.map Prod.fst,
        key ∉ (insertMember m.1 m.2 sorted).map Prod.fst := by
      intro key hkey hmem
      rcases List.mem_cons.mp ((hinsert.map Prod.fst).mem_iff.mp hmem) with rfl | hmem
      · exact hnodup.1 hkey
      · exact hfresh key (List.mem_cons_of_mem _ hkey) hmem
    exact (ih _ hnodup.2 hfresh').trans
      ((hinsert.append_left ms).trans List.perm_middle)

/-- Sorting members with different keys only changes their order. -/
theorem sortMembers_perm {ms : List (String × Value)} (hnodup : (ms.map Prod.fst).Nodup) :
    (sortMembers ms).Perm ms := by
  have h := foldl_insertMember_perm [] hnodup fun _ _ => List.not_mem_nil
  rwa [List.append_nil] at h

theorem sortedItems_eq_map (vs : List Value) : sortedItems vs = vs.map Value.sorted := by
  induction vs with
  | nil => rfl
  | cons v vs ih => rw [sortedItems, ih, List.map_cons]

theorem sortedMembers_eq_map (ms : List (String × Value)) :
    sortedMembers ms = ms.map fun m => (m.1, m.2.sorted) := by
  induction ms with
  | nil => rfl
  | cons m ms ih => rw [sortedMembers, ih, List.map_cons]

/-- Sorting an object with different keys sorts inside its members and changes their order. -/
theorem sorted_object {ms : List (String × Value)} (hnodup : (ms.map Prod.fst).Nodup) :
    ∃ ms', (Value.object ms).sorted = .object ms' ∧
      ms'.Perm (ms.map fun m => (m.1, m.2.sorted)) := by
  refine ⟨sortMembers (sortedMembers ms), by rw [Value.sorted], ?_⟩
  rw [sortedMembers_eq_map]
  apply sortMembers_perm
  rwa [List.map_map]

/-! ## Members that are put in -/

theorem lookup_cons_eq_if (name key : String) (v : Value) (ms : List (String × Value)) :
    List.lookup name ((key, v) :: ms) = if name = key then some v else ms.lookup name := by
  rw [List.lookup_cons]
  by_cases hname : name = key
  · rw [if_pos hname, beq_iff_eq.mpr hname]
  · rw [if_neg hname, beq_eq_false_iff_ne.mpr hname]

/-- The member that is put in is found under its key; under the other keys nothing changes. -/
theorem lookup_insertMember (name key : String) (v : Value) (ms : List (String × Value)) :
    (insertMember key v ms).lookup name = if name = key then some v else ms.lookup name := by
  induction ms with
  | nil => exact lookup_cons_eq_if name key v []
  | cons m ms ih =>
    obtain ⟨k, w⟩ := m
    rw [insertMember]
    split
    · exact lookup_cons_eq_if name key v ((k, w) :: ms)
    · split
      · rename_i hkey
        subst hkey
        rw [lookup_cons_eq_if, lookup_cons_eq_if]
        by_cases hname : name = key
        · rw [if_pos hname, if_pos hname]
        · rw [if_neg hname, if_neg hname, if_neg hname]
      · rename_i hkey
        rw [lookup_cons_eq_if, ih, lookup_cons_eq_if]
        by_cases hname : name = k
        · rw [if_pos hname, if_neg fun heq => hkey (heq.symm.trans hname), if_pos hname]
        · rw [if_neg hname, if_neg hname]

theorem mem_keys_insertMember {name key : String} {v : Value} {ms : List (String × Value)} :
    name ∈ (insertMember key v ms).map Prod.fst ↔ name = key ∨ name ∈ ms.map Prod.fst := by
  induction ms with
  | nil => simp [insertMember]
  | cons m ms ih =>
    obtain ⟨k, w⟩ := m
    rw [insertMember]
    split
    · simp
    · split
      · rename_i hkey
        simp [hkey]
      · rw [List.map_cons, List.mem_cons, ih, List.map_cons, List.mem_cons]
        exact or_left_comm

/-- Keys in strictly rising order, so that none comes twice. -/
def SortedKeys (ms : List (String × Value)) : Prop :=
  (ms.map Prod.fst).Pairwise (· < ·)

theorem SortedKeys.insertMember {key : String} {v : Value} {ms : List (String × Value)}
    (h : SortedKeys ms) : SortedKeys (insertMember key v ms) := by
  induction ms with
  | nil => exact List.pairwise_singleton _ _
  | cons m ms ih =>
    obtain ⟨k, w⟩ := m
    obtain ⟨hfirst, hrest⟩ := List.pairwise_cons.mp h
    rw [Json.insertMember]
    split
    · rename_i hlt
      refine List.pairwise_cons.mpr ⟨fun name hname => ?_, h⟩
      rcases List.mem_cons.mp hname with rfl | hname
      · exact hlt
      · exact String.lt_trans hlt (hfirst name hname)
    · split
      · rename_i hkey
        subst hkey
        exact h
      · rename_i hlt hkey
        refine List.pairwise_cons.mpr ⟨fun name hname => ?_, ih hrest⟩
        rcases mem_keys_insertMember.mp hname with rfl | hname
        · exact Std.lt_of_le_of_ne (String.not_lt.mp hlt) (Ne.symm hkey)
        · exact hfirst name hname

/-- Of the members that are put in with one key the last stays. -/
theorem lookup_foldl_insertMember (name : String) (ms sorted : List (String × Value)) :
    (ms.foldl (fun sorted m => insertMember m.1 m.2 sorted) sorted).lookup name =
      (ms.reverse.lookup name).or (sorted.lookup name) := by
  induction ms generalizing sorted with
  | nil => rfl
  | cons m ms ih =>
    rw [List.foldl_cons, ih, lookup_insertMember, List.reverse_cons, List.lookup_append,
      Option.or_assoc, lookup_cons_eq_if, List.lookup_nil]
    by_cases hname : name = m.1
    · rw [if_pos hname, if_pos hname, Option.some_or]
    · rw [if_neg hname, if_neg hname, Option.none_or]

theorem mem_keys_foldl_insertMember {name : String} {ms sorted : List (String × Value)} :
    name ∈ (ms.foldl (fun sorted m => insertMember m.1 m.2 sorted) sorted).map Prod.fst ↔
      name ∈ sorted.map Prod.fst ∨ name ∈ ms.map Prod.fst := by
  induction ms generalizing sorted with
  | nil => simp
  | cons m ms ih =>
    rw [List.foldl_cons, ih, mem_keys_insertMember, List.map_cons, List.mem_cons]
    tauto

theorem SortedKeys.foldl_insertMember {ms sorted : List (String × Value)} (h : SortedKeys sorted) :
    SortedKeys (ms.foldl (fun sorted m => Json.insertMember m.1 m.2 sorted) sorted) := by
  induction ms generalizing sorted with
  | nil => exact h
  | cons m ms ih => exact ih h.insertMember

end SearchGateway.Json
