import DocQuery.Condition.Pattern
import Mathlib.Data.List.Basic

/-!
# Basic patterns

A pattern is basic when it is a test of its own: it has no wildcard, or one behind a text, or one on
either side of a text. These are the patterns that are classified as such tests.
-/

namespace DocQuery.Pattern

/-- The characters of a pattern with wildcards in no other places than behind a text or on both
sides of it. -/
inductive IsBasic : List Char → Prop
  | exact {text : List Char} :
      '%' ∉ text →
      IsBasic text
  | startsWith {text : List Char} :
      text ≠ [] → '%' ∉ text →
      IsBasic (text ++ ['%'])
  | contains {text : List Char} :
      text ≠ [] → '%' ∉ text →
      IsBasic ('%' :: (text ++ ['%']))

theorem isBasic_of_one {characters : List Char} (one : characters.count '%' = 1)
    (last : characters.getLast? = some '%') (longer : 1 < characters.length) :
    IsBasic characters := by
  obtain ⟨text, rfl⟩ := List.getLast?_eq_some_iff.mp last
  have nonempty : text ≠ [] := by
    rintro rfl
    simp at longer
  have free : '%' ∉ text := by
    rw [List.count_append, List.count_singleton_self] at one
    exact List.count_eq_zero.mp (by omega)
  exact .startsWith nonempty free

theorem isBasic_of_two {characters : List Char} (two : characters.count '%' = 2)
    (first : characters.head? = some '%') (last : characters.getLast? = some '%')
    (longer : 2 < characters.length) : IsBasic characters := by
  obtain ⟨rest, rfl⟩ := List.head?_eq_some_iff.mp first
  have restNonempty : rest ≠ [] := by
    rintro rfl
    simp at longer
  rw [List.getLast?_cons_of_ne_nil restNonempty] at last
  obtain ⟨text, rfl⟩ := List.getLast?_eq_some_iff.mp last
  have nonempty : text ≠ [] := by
    rintro rfl
    simp at longer
  have free : '%' ∉ text := by
    rw [List.count_cons_self, List.count_append, List.count_singleton_self] at two
    exact List.count_eq_zero.mp (by omega)
  exact .contains nonempty free

/-- The basic patterns are those that are not classified as others. -/
theorem isBasic_iff {pattern : String} :
    IsBasic pattern.toList ↔ ∀ other, classify pattern ≠ .other other := by
  constructor
  · intro basic
    unfold classify
    generalize pattern.toList = characters at basic
    cases basic with
    | exact free =>
        simp [List.count_eq_zero.mpr free]
    | @startsWith text nonempty free =>
        have longer : 0 < text.length := List.length_pos_iff.mpr nonempty
        simp [List.count_eq_zero.mpr free, longer]
    | @contains text nonempty free =>
        have longer : 0 < text.length := List.length_pos_iff.mpr nonempty
        simp [List.count_eq_zero.mpr free, longer, List.getLast?_cons]
  · intro classified
    unfold classify at classified
    dsimp only at classified
    split at classified
    · next none =>
        exact .exact (List.count_eq_zero.mp none)
    · split at classified
      · next one =>
          exact isBasic_of_one one.1 one.2.1 one.2.2
      · split at classified
        · next two =>
            exact isBasic_of_two two.1 two.2.1 two.2.2.1 two.2.2.2
        · exact absurd rfl (classified pattern)

end DocQuery.Pattern
