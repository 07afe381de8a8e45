import DocQuery.Proofs.Text
import DocQuery.Store.Names
import Mathlib.Data.List.Nodup
import Mathlib.Data.List.Perm.Subperm

/-!
# The search for a name

Different numbers give different candidates, so that a table has not enough names for all of
them: the search ends at the first candidate that is free or names the entry already. What it
ends at depends on the names of other entries only, and it stays the same while the table grows.
-/

namespace DocQuery.Names

section Candidates

theorem candidate_injective (base : String) : Function.Injective (candidate base) := by
  intro left right same
  have characters := congrArg String.toList same
  cases left with
  | zero =>
      cases right with
      | zero =>
          rfl
      | succ right =>
          simp [candidate] at characters
  | succ left =>
      cases right with
      | zero =>
          simp [candidate] at characters
      | succ right =>
          simp only [candidate, String.toList_append, List.append_cancel_left_eq] at characters
          exact Text.decimal_injective (String.toList_injective characters)

variable {α : Type}

/-- A table has fewer names than there are candidates. -/
theorem exists_free_candidate (table : Dictionary α) (base : String) :
    ¬ ∀ number, number ≤ table.length → (table.get? (candidate base number)).isSome := by
  intro allTaken
  have nodup : ((List.range (table.length + 1)).map (candidate base)).Nodup :=
    List.Nodup.map (candidate_injective base) List.nodup_range
  have contained :
      (List.range (table.length + 1)).map (candidate base) ⊆ Dictionary.keys table := by
    intro name member
    obtain ⟨number, inRange, rfl⟩ := List.mem_map.mp member
    exact Dictionary.mem_keys_iff.mpr
      (allTaken number (Nat.lt_succ_iff.mp (List.mem_range.mp inRange)))
  have bound := (List.subperm_of_subset nodup contained).length_le
  simp only [List.length_map, List.length_range, Dictionary.keys] at bound
  omega

end Candidates

variable {α : Type} {table : Dictionary α} {base : String} {entry : α} {number : Nat}

def IsTaken (table : Dictionary α) (name : String) (entry : α) : Prop :=
  ∃ held, table.get? name = some held ∧ held ≠ entry

/-- The number of the first candidate that does not name another entry. -/
structure FirstFit (table : Dictionary α) (base : String) (entry : α) (number : Nat) :
    Prop where
  fits : table.get? (candidate base number) = none ∨
    table.get? (candidate base number) = some entry
  taken : ∀ earlier < number, IsTaken table (candidate base earlier) entry

namespace FirstFit

theorem not_isTaken (first : FirstFit table base entry number) :
    ¬ IsTaken table (candidate base number) entry := by
  rintro ⟨held, found, different⟩
  rcases first.fits with free | same
  · rw [free] at found
    cases found
  · rw [same] at found
    exact different (Option.some.inj found).symm

theorem unique {other : Nat} (first : FirstFit table base entry number)
    (second : FirstFit table base entry other) : number = other := by
  rcases Nat.lt_trichotomy number other with before | same | behind
  · exact absurd (second.taken number before) first.not_isTaken
  · exact same
  · exact absurd (first.taken other behind) second.not_isTaken

end FirstFit

/-- The search passes over names of other entries only. It ends at a name that fits, or when
there are no tries left. -/
theorem fitFrom_cases [DecidableEq α] (table : Dictionary α) (base : String) (entry : α)
    (tries number : Nat) :
    ∃ chosen ≤ number + tries,
      fitFrom table base entry tries number = candidate base chosen ∧
      (∀ earlier, number ≤ earlier → earlier < chosen →
        IsTaken table (candidate base earlier) entry) ∧
      (chosen < number + tries →
        table.get? (candidate base chosen) = none ∨
          table.get? (candidate base chosen) = some entry) := by
  induction tries generalizing number with
  | zero =>
      refine ⟨number, Nat.le_refl _, rfl, ?_, by omega⟩
      intro earlier lower upper
      omega
  | succ tries inductionHypothesis =>
      unfold fitFrom
      split
      · next free =>
          refine ⟨number, by omega, rfl, ?_, fun _ => .inl free⟩
          intro earlier lower upper
          omega
      · next held found =>
          split
          · next same =>
              subst same
              refine ⟨number, by omega, rfl, ?_, fun _ => .inr found⟩
              intro earlier lower upper
              omega
          · next different =>
              obtain ⟨chosen, bound, equality, taken, fits⟩ := inductionHypothesis (number + 1)
              refine ⟨chosen, by omega, equality, ?_, fun inside => fits (by omega)⟩
              intro earlier lower upper
              by_cases first : earlier = number
              · rw [first]
                exact ⟨held, found, different⟩
              · exact taken earlier (by omega) upper

/-- The name that is chosen for an entry is the first candidate that fits. It is found with no
more tries than the table has names. -/
theorem fit_spec [DecidableEq α] (table : Dictionary α) (base : String) (entry : α) :
    ∃ number ≤ table.length, fit table base entry = candidate base number ∧
      FirstFit table base entry number := by
  obtain ⟨chosen, bound, equality, taken, fits⟩ :=
    fitFrom_cases table base entry table.length 0
  rw [Nat.zero_add] at bound fits
  have before : ∀ earlier < chosen, IsTaken table (candidate base earlier) entry :=
    fun earlier upper => taken earlier (Nat.zero_le earlier) upper
  refine ⟨chosen, bound, equality, ?_, before⟩
  by_cases inside : chosen < table.length
  · exact fits inside
  -- the last candidate is free, because all others name something
  · left
    by_contra named
    apply exists_free_candidate table base
    intro number upper
    by_cases last : number = chosen
    · rw [last]
      exact Option.isSome_iff_ne_none.mpr named
    · obtain ⟨held, found, _⟩ := before number (by omega)
      rw [found]
      rfl

theorem fits_of_fit [DecidableEq α] (table : Dictionary α) (base : String) (entry : α) :
    table.get? (fit table base entry) = none ∨
      table.get? (fit table base entry) = some entry := by
  obtain ⟨number, _, equality, first⟩ := fit_spec table base entry
  rw [equality]
  exact first.fits

/-- Putting an entry under a name that is free or stands for it changes no other name. -/
theorem get?_insert_of_fits {name : String}
    (fits : table.get? name = none ∨ table.get? name = some entry)
    {other : String} {held : α} (found : table.get? other = some held) :
    (table.insert name entry).get? other = some held := by
  rw [Dictionary.get?_insert]
  by_cases same : name = other
  · subst same
    rcases fits with free | taken
    · rw [free] at found
      cases found
    · rw [taken] at found
      simpa using found
  · simpa [same] using found

/-- The first fit of an entry stays the first one when the entry is under it and other names are
kept. -/
theorem FirstFit.mono {later : Dictionary α} (first : FirstFit table base entry number)
    (kept : ∀ name held, table.get? name = some held → later.get? name = some held)
    (named : later.get? (candidate base number) = some entry) :
    FirstFit later base entry number := by
  refine ⟨.inr named, ?_⟩
  intro earlier upper
  obtain ⟨held, found, different⟩ := first.taken earlier upper
  exact ⟨held, kept _ held found, different⟩

/-- Every segment is under the first alias that fits. -/
def Settled (fields : Dictionary String) : Prop :=
  ∀ name segment, fields.get? name = some segment →
    ∃ number, name = candidate ("#" ++ safe segment) number ∧
      FirstFit fields ("#" ++ safe segment) segment number

theorem settled_nil : Settled [] := by
  intro name segment found
  cases found

theorem Settled.unique {fields : Dictionary String} (settled : Settled fields)
    {first second segment : String} (firstFound : fields.get? first = some segment)
    (secondFound : fields.get? second = some segment) : first = second := by
  obtain ⟨number, rfl, firstFit⟩ := settled first segment firstFound
  obtain ⟨other, rfl, secondFit⟩ := settled second segment secondFound
  rw [firstFit.unique secondFit]

theorem Settled.insert {fields : Dictionary String} (settled : Settled fields)
    (segment : String) :
    Settled (fields.insert (fit fields ("#" ++ safe segment) segment) segment) := by
  have kept (name held : String) (found : fields.get? name = some held) :
      (fields.insert (fit fields ("#" ++ safe segment) segment) segment).get? name =
        some held :=
    get?_insert_of_fits (fits_of_fit fields _ segment) found
  obtain ⟨number, _, equality, first⟩ := fit_spec fields ("#" ++ safe segment) segment
  intro name held found
  rw [Dictionary.get?_insert] at found
  split at found
  · next same =>
      obtain rfl := Option.some.inj found
      refine ⟨number, same.symm.trans equality, first.mono kept ?_⟩
      rw [← equality, Dictionary.get?_insert, if_pos rfl]
  · obtain ⟨other, rfl, otherFit⟩ := settled name held found
    exact ⟨other, rfl, otherFit.mono kept (kept _ _ found)⟩

end DocQuery.Names
