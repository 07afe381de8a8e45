import DocQuery.Proofs.Paging.Course
import DocQuery.Proofs.Paging.Listing

/-!
# What a sweep gathers

Whatever ends a sweep over the rows of a store, the items gathered are those of the first rows
that match. If there is a cursor to go on after, exactly the rows up to it were gathered. A sweep
that nothing disturbs ends when its target is reached or everything was read.
-/

namespace DocQuery

/-- Items gathered from a cursor on, and the cursor to go on after if there is one. -/
def Listing.Gathered (rows : Listing) (start : Option Cursor) (items : List Item)
    (cursor : Option Cursor) : Prop :=
  items <+: (rows.after start).matching ∧
    ∀ next, cursor = some next → rows.Reached start items (some next)

theorem Listing.Reached.gathered {rows : Listing} {start cursor : Option Cursor}
    {items : List Item} (reached : rows.Reached start items cursor) :
    rows.Gathered start items cursor := by
  refine ⟨?_, ?_⟩
  · rw [reached.matching_eq]
    exact List.prefix_append _ _
  · rintro next rfl
    exact reached

namespace Pager

/-- The calls of a plan are answered from these rows, unless they fail. -/
def Serves (pager : Pager) (plan : StorePlan) (rows : Listing) : Prop :=
  ∀ history limit cursor output, rows.Knows cursor →
    (pager.call plan limit cursor history).1 = .ok output → rows.Answers cursor output

theorem serves_store (rows : Listing) (more : History → Nat) (clock : History → Nat)
    (settings : PagingSettings) (plan : StorePlan) :
    Serves ⟨rows.store more, clock, settings⟩ plan rows := by
  intro history limit cursor output _ called
  unfold call at called
  split at called
  · cases called
    exact rows.answers_answer _ cursor
  · cases called
    exact rows.answers_answer _ cursor
  · cases called

/-- Between two moments no call failed, and the time was never spent. -/
structure Undisturbed (pager : Pager) (budget : Nat) (before final : History) : Prop where
  answered : ∀ history call, before <+: history → history ++ [call] <+: final →
    pager.store.answers history call = true
  inTime : ∀ history, before <+: history → history <+: final → pager.clock history < budget

theorem Undisturbed.mono {pager : Pager} {budget : Nat}
    {before first second final : History}
    (undisturbed : pager.Undisturbed budget before final)
    (later : before <+: first) (earlier : second <+: final) :
    pager.Undisturbed budget first second where
  answered history call above below :=
    undisturbed.answered history call (later.trans above) (below.trans earlier)
  inTime history above below :=
    undisturbed.inTime history (later.trans above) (below.trans earlier)

variable {pager : Pager} {plan : StorePlan} {rows : Listing}
variable {budget target left : Nat} {policy : FailurePolicy} {sofar : Sweep} {history : History}
variable {result : Logged (Except StoreFailure Sweep)}

theorem add_ended (serves : pager.Serves plan rows) (distinct : rows.Distinct)
    {start : Option Cursor} (reached : rows.Reached start sofar.items sofar.cursor)
    {output : Output} {logged : History}
    (called : pager.nextCall plan target sofar history = (.ok output, logged))
    (atEnd : (sofar.add output).cursor = none) :
    (sofar.add output).items = (rows.after start).matching := by
  have answered := congrArg Prod.fst called
  have answers := serves history _ sofar.cursor output reached.1 answered
  rcases answers.reached distinct with ⟨_, everything⟩ | ⟨next, found, _⟩
  · rw [reached.matching_eq, ← everything]
    rfl
  · have cursorFound : (sofar.add output).cursor = some next := found
    rw [atEnd] at cursorFound
    cases cursorFound

/-- With a cursor left the sweep has got further, past one row at least. -/
theorem add_live (serves : pager.Serves plan rows) (distinct : rows.Distinct)
    {start : Option Cursor} (reached : rows.Reached start sofar.items sofar.cursor)
    {output : Output} {logged : History}
    (called : pager.nextCall plan target sofar history = (.ok output, logged))
    (live : (sofar.add output).cursor ≠ none) :
    rows.Reached start (sofar.add output).items (sofar.add output).cursor ∧
      (rows.after (sofar.add output).cursor).length < (rows.after sofar.cursor).length := by
  have answered := congrArg Prod.fst called
  have answers := serves history _ sofar.cursor output reached.1 answered
  rcases answers.reached distinct with ⟨ended, _⟩ | ⟨next, found, further, shorter⟩
  · exact absurd ended live
  · have cursorFound : (sofar.add output).cursor = some next := found
    rw [cursorFound]
    exact ⟨reached.trans further, shorter⟩

theorem Sweeps.gathered (serves : pager.Serves plan rows) (distinct : rows.Distinct)
    {start : Option Cursor}
    (sweeps : Sweeps pager plan budget policy target left sofar history result)
    (reached : rows.Reached start sofar.items sofar.cursor)
    {final : Sweep} (ended : result.1 = .ok final) :
    rows.Gathered start final.items final.cursor := by
  induction sweeps with
  | spent _ =>
      cases ended
      exact ⟨reached.gathered.1, by simp⟩
  | ceiling _ =>
      cases ended
      exact reached.gathered
  | rejected _ _ _ =>
      cases ended
  | failed _ _ _ =>
      cases ended
      exact reached.gathered
  | exhausted _ called atEnd =>
      cases ended
      have everything := add_ended serves distinct reached called atEnd
      exact ⟨by simp [everything], by simp [atEnd]⟩
  | filled _ called live _ =>
      cases ended
      have further := add_live serves distinct reached called live
      exact further.1.gathered
  | further _ called live _ _ inductionHypothesis =>
      have further := add_live serves distinct reached called live
      exact inductionHypothesis further.1 ended

/-- The sweep has gathered everything, or enough and knows where to go on. -/
def Finished (rows : Listing) (start : Option Cursor) (target : Nat) (final : Sweep) : Prop :=
  (final.cursor = none ∧ final.items = (rows.after start).matching) ∨
    (Reaches target final ∧ final.cursor ≠ none ∧ rows.Reached start final.items final.cursor)

/-- A sweep that nothing disturbs is finished if it has more rounds than rows before it. -/
theorem Sweeps.finished (serves : pager.Serves plan rows) (distinct : rows.Distinct)
    (notSearch : plan.method ≠ .search) {start : Option Cursor}
    (sweeps : Sweeps pager plan budget policy target left sofar history result)
    (reached : rows.Reached start sofar.items sofar.cursor)
    (undisturbed : pager.Undisturbed budget history result.2)
    (enough : (rows.after sofar.cursor).length < left) :
    ∃ final, result.1 = .ok final ∧ Finished rows start target final := by
  induction sweeps with
  | spent late =>
      have inTime := undisturbed.inTime _ List.prefix_rfl List.prefix_rfl
      exact absurd late.2 (Nat.not_le.mpr inTime)
  | ceiling _ =>
      exact absurd enough (Nat.not_lt_zero _)
  | rejected _ called _ =>
      obtain ⟨request, rfl, failed⟩ := call_answered notSearch called
      rw [undisturbed.answered _ request List.prefix_rfl List.prefix_rfl] at failed
      cases failed
  | failed _ called _ =>
      obtain ⟨request, rfl, failed⟩ := call_answered notSearch called
      rw [undisturbed.answered _ request List.prefix_rfl List.prefix_rfl] at failed
      cases failed
  | exhausted _ called atEnd =>
      have everything := add_ended serves distinct reached called atEnd
      exact ⟨_, rfl, .inl ⟨atEnd, everything⟩⟩
  | filled _ called live reaches =>
      have further := add_live serves distinct reached called live
      exact ⟨_, rfl, .inr ⟨reaches, live, further.1⟩⟩
  | further _ called live _ _ inductionHypothesis =>
      obtain ⟨further, shorter⟩ := add_live serves distinct reached called live
      have later := undisturbed.mono (call_extends called) List.prefix_rfl
      exact inductionHypothesis further later (by omega)

/-- The same for a sweep that begins, if there are more rounds than rows. -/
theorem Sweeps.finished_of_start (serves : pager.Serves plan rows) (distinct : rows.Distinct)
    (notSearch : plan.method ≠ .search) {start : Option Cursor} (known : rows.Knows start)
    (sweeps : Sweeps pager plan budget policy target left (.start start) history result)
    (undisturbed : pager.Undisturbed budget history result.2) (enough : rows.length < left) :
    ∃ final, result.1 = .ok final ∧ Finished rows start target final := by
  have fewer := (rows.after_suffix start).length_le
  exact sweeps.finished serves distinct notSearch (.refl known) undisturbed
    (Nat.lt_of_le_of_lt fewer enough)

end Pager

end DocQuery
