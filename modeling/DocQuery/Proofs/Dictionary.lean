import DocQuery.Dictionary
import Mathlib.Data.String.Basic

/-!
# Dictionaries as finite maps

A dictionary whose keys ascend is determined by the values of its keys, and so is whatever is
built from pairs by insertion.
-/

namespace DocQuery.Dictionary

variable {α : Type}

/-- The keys ascend, so that there is one entry for a key. -/
def Ordered (entries : Dictionary α) : Prop :=
  entries.keys.Pairwise (· < ·)

theorem get?_eq_none_iff {entries : Dictionary α} {key : String} :
    entries.get? key = none ↔ key ∉ entries.keys := by
  rw [mem_keys_iff]
  simp

theorem keys_insert {entries : Dictionary α} {key : String} {value : α} {name : String}
    (member : name ∈ (entries.insert key value).keys) :
    name = key ∨ name ∈ entries.keys := by
  rw [mem_keys_iff, get?_insert] at member
  split at member
  · next same => exact .inl same.symm
  · exact .inr (mem_keys_iff.mpr member)

theorem Ordered.insert {entries : Dictionary α} (ordered : Ordered entries)
    (key : String) (value : α) : Ordered (entries.insert key value) := by
  induction entries with
  | nil =>
      simp [Dictionary.insert, Ordered, keys]
  | cons entry rest inductionHypothesis =>
      obtain ⟨name, held⟩ := entry
      obtain ⟨before, restOrdered⟩ := List.pairwise_cons.mp ordered
      simp only [Dictionary.insert]
      split
      · next same =>
          subst same
          exact ordered
      · next different =>
          split
          · next earlier =>
              refine List.pairwise_cons.mpr ⟨?_, ordered⟩
              intro other member
              rcases List.mem_cons.mp member with rfl | later
              · exact earlier
              · exact earlier.trans (before other later)
          · next notEarlier =>
              refine List.pairwise_cons.mpr ⟨?_, inductionHypothesis restOrdered⟩
              intro other member
              rcases keys_insert member with rfl | later
              · exact lt_of_le_of_ne (not_lt.mp notEarlier) (Ne.symm different)
              · exact before other later

theorem Ordered.foldl_insert {entries : Dictionary α} (ordered : Ordered entries)
    (pairs : List (String × α)) :
    Ordered (pairs.foldl (fun entries pair => entries.insert pair.1 pair.2) entries) := by
  induction pairs generalizing entries with
  | nil =>
      exact ordered
  | cons pair rest inductionHypothesis =>
      exact inductionHypothesis (ordered.insert pair.1 pair.2)

theorem ordered_ofList (pairs : List (String × α)) : Ordered (ofList pairs) := by
  have empty : Ordered ([] : Dictionary α) := List.Pairwise.nil
  exact empty.foldl_insert pairs

theorem Ordered.ext {first second : Dictionary α}
    (firstOrdered : Ordered first) (secondOrdered : Ordered second)
    (agree : ∀ key, first.get? key = second.get? key) : first = second := by
  induction first generalizing second with
  | nil =>
      cases second with
      | nil =>
          rfl
      | cons entry rest =>
          simpa [get?] using agree entry.1
  | cons entry rest inductionHypothesis =>
      obtain ⟨name, value⟩ := entry
      cases second with
      | nil =>
          simpa [get?] using agree name
      | cons otherEntry others =>
          obtain ⟨otherName, otherValue⟩ := otherEntry
          obtain ⟨before, restOrdered⟩ := List.pairwise_cons.mp firstOrdered
          obtain ⟨otherBefore, othersOrdered⟩ := List.pairwise_cons.mp secondOrdered
          -- the least key of either dictionary is a key of the other one
          have notAbove : ¬ otherName < name := by
            intro above
            have found : otherName ∈ keys ((name, value) :: rest) := by
              rw [mem_keys_iff, agree]
              simp [get?]
            rcases List.mem_cons.mp found with same | later
            · exact above.ne same
            · exact (above.trans (before _ later)).false
          have notBelow : ¬ name < otherName := by
            intro below
            have found : name ∈ keys ((otherName, otherValue) :: others) := by
              rw [mem_keys_iff, ← agree]
              simp [get?]
            rcases List.mem_cons.mp found with same | later
            · exact below.ne same
            · exact (below.trans (otherBefore _ later)).false
          obtain rfl : name = otherName := le_antisymm (not_lt.mp notAbove) (not_lt.mp notBelow)
          obtain rfl : value = otherValue := by simpa [get?] using agree name
          congr 1
          apply inductionHypothesis restOrdered othersOrdered
          intro key
          by_cases same : name = key
          · subst same
            rw [get?_eq_none_iff.mpr fun member => (before name member).false,
              get?_eq_none_iff.mpr fun member => (otherBefore name member).false]
          · simpa [get?, same] using agree key

/-- Entries of one dictionary that are put into another one replace what is there. -/
theorem get?_foldl_insert {entries built : Dictionary α} {pairs : List (String × α)}
    (taken : ∀ pair ∈ pairs, entries.get? pair.1 = some pair.2) (key : String) :
    (pairs.foldl (fun entries pair => entries.insert pair.1 pair.2) built).get? key =
      if key ∈ pairs.map Prod.fst then entries.get? key else built.get? key := by
  induction pairs generalizing built with
  | nil =>
      simp
  | cons pair rest inductionHypothesis =>
      have restTaken : ∀ other ∈ rest, entries.get? other.1 = some other.2 :=
        fun other member => taken other (List.mem_cons_of_mem _ member)
      rw [List.foldl_cons, inductionHypothesis restTaken, get?_insert]
      by_cases later : key ∈ rest.map Prod.fst
      · simp [later]
      · by_cases same : pair.1 = key
        · subst same
          simp [later, taken pair List.mem_cons_self]
        · simp [later, same, Ne.symm same]

/-- Pairs that all are entries of an ordered dictionary, and that have all its keys, are put
together to that dictionary. -/
theorem ofList_eq_of_entries {entries : Dictionary α} (ordered : Ordered entries)
    {pairs : List (String × α)}
    (taken : ∀ pair ∈ pairs, entries.get? pair.1 = some pair.2)
    (complete : ∀ key ∈ entries.keys, key ∈ pairs.map Prod.fst) :
    ofList pairs = entries := by
  apply (ordered_ofList pairs).ext ordered
  intro key
  rw [ofList, get?_foldl_insert taken]
  split
  · rfl
  · next missing =>
      symm
      rw [get?_nil, get?_eq_none_iff]
      exact fun member => missing (complete key member)

end DocQuery.Dictionary
