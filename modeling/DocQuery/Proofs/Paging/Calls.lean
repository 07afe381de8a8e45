import DocQuery.Proofs.Paging.Rounds

/-!
# The calls of a fetch

A fetch calls a store for the results to skip, then for those of the page. The second sweep goes on
where the first one ended, and only if all was skipped and the page has room. So what is known of
the rounds of one sweep holds of all calls of a fetch, and the settings bound their number.
-/

namespace DocQuery

namespace Pager

variable {pager : Pager} {plan : StorePlan} {window : PageWindow} {history : History}

theorem cut_rounds (items : List Item) (limit : Nat) (cursor : Option Cursor)
    (keyFields : List String) (scanned rounds : Nat) :
    (cut items limit cursor keyFields scanned rounds).rounds = rounds := by
  unfold cut
  split <;> rfl

theorem cut_next_eq_none_iff {items : List Item} {limit : Nat} {cursor : Option Cursor}
    {keyFields : List String} {scanned rounds : Nat} :
    (cut items limit cursor keyFields scanned rounds).next = none ↔ cursor = none := by
  unfold cut
  split
  · exact Option.map_eq_none_iff
  · exact Iff.rfl

/-- What skipping gathered beyond the results to skip. -/
def carried (window : PageWindow) (skipping : Transcript) : List Item :=
  skipping.gathered.drop window.skip

/-- How a fetch calls the store: for the results to skip, then for those of the page. -/
structure Calls (pager : Pager) (plan : StorePlan) (window : PageWindow) (history : History)
    (result : Logged (Except StoreFailure Page)) (skipping filling : Transcript) : Prop where
  /-- These are all calls of the fetch, with the answers of the store. -/
  between : Transcript.Between pager.store history result.2 (skipping ++ filling)
  /-- No call follows a failed one, and each goes on after the key of the answer before it. -/
  follows : (skipping ++ filling).Each fun earlier call =>
    earlier.Succeeds ∧ plan.Asks (earlier.keyAfter (Cursor.keyOrEmpty window.start)) call
  skips : skipping.Each fun earlier call =>
    Limited pager.settings plan window.skip earlier.gathered.length call.limit
  fills : filling.Each fun earlier call =>
    Limited pager.settings plan (pageTarget window (carried window skipping))
      earlier.gathered.length call.limit
  noSkip : window.skip = 0 → skipping = []
  /-- The page is filled once all was skipped, and while it has room for more. -/
  turns : filling ≠ [] → window.skip ≤ skipping.gathered.length ∧
    (0 < window.limit → (carried window skipping).length < window.limit)
  bounded : (skipping ++ filling).length ≤
    if window.skip = 0 then pager.settings.maxRounds else 2 * pager.settings.maxRounds
  late : (∀ later, history <+: later → budget pager.settings window.start ≤ pager.clock later) →
    (skipping ++ filling).length ≤ 1
  counted : ∀ page, result.1 = .ok page → page.rounds = (skipping ++ filling).length

/-- The calls to fill a page, which may follow those to skip. -/
structure FillCalls (pager : Pager) (plan : StorePlan) (window : PageWindow)
    (items : List Item) (start : Option Cursor) (rounds : Nat) (history : History)
    (result : Logged (Except StoreFailure Page)) (filling : Transcript) : Prop where
  between : Transcript.Between pager.store history result.2 filling
  calls : filling.Each (CallsFor pager.settings plan (pageTarget window items)
    (Cursor.keyOrEmpty start) 0)
  length_le : filling.length ≤ pager.settings.maxRounds
  late : (∀ later, history <+: later → budget pager.settings window.start ≤ pager.clock later) →
    filling.length ≤ 1
  counted : ∀ page, result.1 = .ok page → page.rounds = rounds + filling.length
  next : pager.clock result.2 < budget pager.settings window.start →
    ∀ page, result.1 = .ok page →
      (page.next = none ↔ filling.keyAfter (Cursor.keyOrEmpty start) = [])

theorem Fills.calls {items : List Item} {start : Option Cursor} {scanned rounds : Nat}
    {result : Logged (Except StoreFailure Page)} (notSearch : plan.method ≠ .search)
    (fills : Fills pager plan window items start scanned rounds history result) :
    ∃ filling, FillCalls pager plan window items start rounds history result filling := by
  cases fills with
  | rejected sweeps =>
      obtain ⟨filling, recorded⟩ := sweeps.recorded notSearch (Reaches.not_start _ _)
      exact ⟨filling,
        { between := recorded.between
          calls := recorded.calls
          length_le := recorded.length_le
          late := sweeps.length_le_one notSearch recorded.between
          counted := by rintro page ⟨⟩
          next := by rintro _ page ⟨⟩ }⟩
  | swept sweeps =>
      obtain ⟨filling, recorded⟩ := sweeps.recorded notSearch (Reaches.not_start _ _)
      refine ⟨filling,
        { between := recorded.between
          calls := recorded.calls
          length_le := recorded.length_le
          late := sweeps.length_le_one notSearch recorded.between
          counted := ?_
          next := ?_ }⟩
      · rintro page ⟨⟩
        have rounds := (recorded.ends _ rfl).rounds
        simp only [cut_rounds, rounds, Sweep.start]
        omega
      · rintro inTime page ⟨⟩
        rw [cut_next_eq_none_iff, ← Cursor.keyOrEmpty_eq_nil_iff,
          sweeps.keyOrEmpty_eq recorded inTime]
        rfl

/-- The calls of a fetch that ends with the sweep over the results to skip. -/
theorem calls_of_skips {ended : Except StoreFailure Sweep} {result : Except StoreFailure Page}
    {logged : History} (notSearch : plan.method ≠ .search) (positive : 0 < window.skip)
    (skips : Skips pager plan window history (ended, logged))
    (counted : ∀ page, result = .ok page →
      ∃ skipped, ended = .ok skipped ∧ page.rounds = skipped.rounds) :
    ∃ skipping filling, Calls pager plan window history (result, logged) skipping filling := by
  obtain ⟨skipping, recorded⟩ := skips.recorded notSearch (Reaches.not_start _ _)
  have fewer := recorded.length_le
  refine ⟨skipping, [],
    { between := by simpa using recorded.between
      follows := ?_
      skips := ?_
      fills := Transcript.each_nil
      noSkip := fun none => absurd none (Nat.ne_of_gt positive)
      turns := fun some => absurd rfl some
      bounded := ?_
      late := ?_
      counted := ?_ }⟩
  · rw [List.append_nil]
    exact recorded.calls.imp fun _ _ callsFor => ⟨callsFor.succeeds, callsFor.asks⟩
  · exact recorded.calls.imp fun _ _ callsFor => by simpa [Sweep.start] using callsFor.limited
  · rw [if_neg (Nat.ne_of_gt positive), List.append_nil]
    omega
  · rw [List.append_nil]
    exact skips.length_le_one notSearch recorded.between
  · intro page found
    obtain ⟨skipped, rfl, rounds⟩ := counted page found
    rw [rounds, (recorded.ends skipped rfl).rounds]
    simp [Sweep.start]

/-- The calls of a fetch that fills the page without skipping anything. -/
theorem Fills.direct_calls {result : Logged (Except StoreFailure Page)}
    (notSearch : plan.method ≠ .search) (noSkip : window.skip = 0)
    (fills : Fills pager plan window [] window.start 0 0 history result) :
    ∃ skipping filling, Calls pager plan window history result skipping filling := by
  obtain ⟨filling, recorded⟩ := fills.calls notSearch
  have nothing : carried window [] = [] := by
    simp [carried]
  refine ⟨[], filling,
    { between := recorded.between
      follows := recorded.calls.imp fun _ _ callsFor => ⟨callsFor.succeeds, callsFor.asks⟩
      skips := Transcript.each_nil
      fills := ?_
      noSkip := fun _ => rfl
      turns := fun _ => ⟨by simp [noSkip], fun limited => by simpa [nothing] using limited⟩
      bounded := by simpa [noSkip] using recorded.length_le
      late := recorded.late
      counted := ?_ }⟩
  · rw [nothing]
    exact recorded.calls.imp fun _ _ callsFor => by simpa using callsFor.limited
  · intro page found
    simpa using recorded.counted page found

/-- The calls of a fetch that goes on to fill the page when all was skipped. -/
theorem Fills.further_calls {skipped : Sweep} {logged : History}
    {result : Logged (Except StoreFailure Page)} (notSearch : plan.method ≠ .search)
    (positive : 0 < window.skip) (skips : Skips pager plan window history (.ok skipped, logged))
    (reaches : window.skip ≤ skipped.items.length) (incomplete : ¬ Complete window skipped)
    (inTime : pager.clock logged < budget pager.settings window.start)
    (fills : Fills pager plan window (skipped.items.drop window.skip) skipped.cursor
      skipped.scanned skipped.rounds logged result) :
    ∃ skipping filling, Calls pager plan window history result skipping filling := by
  obtain ⟨skipping, recorded⟩ := skips.recorded notSearch (Reaches.not_start _ _)
  obtain ⟨filling, later⟩ := fills.calls notSearch
  have ends := recorded.ends skipped rfl
  have items : skipped.items = skipping.gathered := by
    simpa [Sweep.start] using ends.items
  have succeeds : skipping.Succeeds := ends.succeeds ⟨positive, reaches⟩
  have cursor : Cursor.keyOrEmpty skipped.cursor =
      skipping.keyAfter (Cursor.keyOrEmpty window.start) := by
    rcases ends.cursor with ⟨_, atEnd⟩ | continued
    · exact absurd (.inl atEnd) incomplete
    · exact continued
  have carries : carried window skipping = skipped.items.drop window.skip := by
    rw [carried, items]
  refine ⟨skipping, filling,
    { between := recorded.between.append later.between
      follows := ?_
      skips := ?_
      fills := ?_
      noSkip := fun none => absurd none (Nat.ne_of_gt positive)
      turns := ?_
      bounded := ?_
      late := ?_
      counted := ?_ }⟩
  · refine .append (recorded.calls.imp fun _ _ callsFor => ⟨callsFor.succeeds, callsFor.asks⟩) ?_
    refine later.calls.imp fun earlier call callsFor => ⟨succeeds.append callsFor.succeeds, ?_⟩
    rw [Transcript.keyAfter_append, ← cursor]
    exact callsFor.asks
  · exact recorded.calls.imp fun _ _ callsFor => by simpa [Sweep.start] using callsFor.limited
  · rw [carries]
    exact later.calls.imp fun _ _ callsFor => by simpa using callsFor.limited
  · intro _
    refine ⟨items ▸ reaches, fun limited => ?_⟩
    rw [carries]
    by_contra full
    exact incomplete (.inr ⟨limited, Nat.le_of_not_lt full⟩)
  · have fewSkipping := recorded.length_le
    have fewFilling := later.length_le
    rw [if_neg (Nat.ne_of_gt positive), List.length_append]
    omega
  -- a second sweep is not begun when the time is spent
  · intro late
    exact absurd (late logged skips.extends_history) (Nat.not_le.mpr inTime)
  · intro page found
    rw [later.counted page found, ends.rounds, List.length_append]
    simp [Sweep.start]

theorem Fetches.calls {result : Logged (Except StoreFailure Page)}
    (fetches : Fetches pager plan window history result) :
    ∃ skipping filling, Calls pager plan window history result skipping filling := by
  cases fetches with
  | search _ =>
      exact ⟨[], [],
        { between := .nil
          follows := Transcript.each_nil
          skips := Transcript.each_nil
          fills := Transcript.each_nil
          noSkip := fun _ => rfl
          turns := fun some => absurd rfl some
          bounded := Nat.zero_le _
          late := fun _ => Nat.zero_le _
          counted := by rintro page ⟨⟩ }⟩
  | direct notSearch noSkip fills =>
      exact fills.direct_calls notSearch noSkip
  | rejected notSearch positive skips =>
      exact calls_of_skips notSearch positive skips (by rintro page ⟨⟩)
  | short notSearch positive skips _ =>
      refine calls_of_skips notSearch positive skips ?_
      rintro page ⟨⟩
      exact ⟨_, rfl, rfl⟩
  | complete notSearch positive skips _ _ | late notSearch positive skips _ _ _ =>
      refine calls_of_skips notSearch positive skips ?_
      rintro page ⟨⟩
      exact ⟨_, rfl, cut_rounds _ _ _ _ _ _⟩
  | further notSearch positive skips reaches incomplete inTime fills =>
      exact fills.further_calls notSearch positive skips reaches incomplete inTime

/-- However a store behaves, a fetch calls it like this. -/
theorem fetch_calls (pager : Pager) (plan : StorePlan) (window : PageWindow)
    (history : History) :
    ∃ skipping filling, Calls pager plan window history (pager.fetch plan window history)
      skipping filling :=
  (fetch_fetches pager plan window history).calls

end Pager

end DocQuery
