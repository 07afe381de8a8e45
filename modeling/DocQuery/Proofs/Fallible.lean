import Mathlib.Tactic.Common

/-!
# Computations that may fail

A sequence of computations succeeds exactly if each of them does, and the first one that fails
gives the error.
-/

namespace DocQuery.Fallible

variable {ε α β : Type}

theorem bind_eq_ok_iff {first : Except ε α} {next : α → Except ε β} {result : β} :
    first >>= next = .ok result ↔ ∃ value, first = .ok value ∧ next value = .ok result := by
  cases first with
  | error fault =>
      simp [bind, Except.bind]
  | ok value =>
      simp [bind, Except.bind]

theorem map_eq_ok_iff {computation : Except ε α} {image : α → β} {result : β} :
    computation.map image = .ok result ↔
      ∃ value, computation = .ok value ∧ image value = result := by
  cases computation with
  | error fault =>
      simp [Except.map]
  | ok value =>
      simp [Except.map]

theorem pure_eq_ok_iff {value result : α} :
    (pure value : Except ε α) = .ok result ↔ value = result := by
  simp [pure, Except.pure]

/-- Every error that the computation can end with has this cause. -/
def FailsOnly (Cause : ε → Prop) (computation : Except ε α) : Prop :=
  ∀ fault, computation = .error fault → Cause fault

namespace FailsOnly

variable {Cause : ε → Prop}

theorem of_ok (value : α) : FailsOnly Cause (.ok value : Except ε α) := by
  intro fault failed
  cases failed

theorem of_error {fault : ε} (cause : Cause fault) :
    FailsOnly Cause (.error fault : Except ε α) := by
  intro other failed
  cases failed
  exact cause

theorem imp {Weaker : ε → Prop} {computation : Except ε α}
    (fails : FailsOnly Cause computation) (weaken : ∀ fault, Cause fault → Weaker fault) :
    FailsOnly Weaker computation :=
  fun fault failed => weaken fault (fails fault failed)

/-- What has no cause to fail succeeds. -/
theorem exists_ok {computation : Except ε α} (fails : FailsOnly Cause computation)
    (uncaused : ∀ fault, ¬ Cause fault) : ∃ value, computation = .ok value := by
  cases computation with
  | error fault =>
      exact absurd (fails fault rfl) (uncaused fault)
  | ok value =>
      exact ⟨value, rfl⟩

theorem bind {first : Except ε α} {next : α → Except ε β} (firstFails : FailsOnly Cause first)
    (nextFails : ∀ value, first = .ok value → FailsOnly Cause (next value)) :
    FailsOnly Cause (first >>= next) := by
  intro fault failed
  cases first with
  | error earlier =>
      cases failed
      exact firstFails fault rfl
  | ok value =>
      exact nextFails value rfl fault failed

theorem map {computation : Except ε α} (fails : FailsOnly Cause computation) (image : α → β) :
    FailsOnly Cause (computation.map image) := by
  cases computation with
  | error earlier =>
      exact of_error (fails earlier rfl)
  | ok value =>
      exact of_ok (image value)

end FailsOnly

end DocQuery.Fallible
