import DocQuery.Proofs.Paging.Calls
import DocQuery.Proofs.Paging.Window

/-!
# When a page has no cursor

If the time is never spent, a page has no cursor in two cases: the last answer said that nothing is
left to read, or fewer items were gathered than are to be skipped. In the second case the cursor is
given up although the store may have told where to go on.
-/

namespace DocQuery

namespace Pager

variable {pager : Pager} {plan : StorePlan} {window : PageWindow} {page : Page}
variable {history final : History} {transcript : Transcript}

/-- What the sweep over the results to skip leaves behind. -/
theorem Skips.ends {skipped : Sweep} {skipping : Transcript}
    (notSearch : plan.method ≠ .search)
    (skips : Skips pager plan window history (.ok skipped, final))
    (between : Transcript.Between pager.store history final skipping)
    (inTime : pager.clock final < budget pager.settings window.start) :
    skipped.items = skipping.gathered ∧
      Cursor.keyOrEmpty skipped.cursor =
        skipping.keyAfter (Cursor.keyOrEmpty window.start) := by
  obtain ⟨recordedTranscript, recorded⟩ := skips.recorded notSearch (Reaches.not_start _ _)
  obtain rfl := recorded.between.unique between
  refine ⟨?_, skips.keyOrEmpty_eq recorded inTime⟩
  simpa [Sweep.start] using (recorded.ends skipped rfl).items

/-- If the time is not spent, a page has no cursor exactly if too little was gathered to skip, or
there is nothing to go on after. -/
theorem next_eq_none_iff
    (inTime : ∀ later, history <+: later →
      pager.clock later < budget pager.settings window.start)
    (fetched : pager.fetch plan window history = (.ok page, final))
    (between : Transcript.Between pager.store history final transcript) :
    page.next = none ↔ transcript.gathered.length < window.skip ∨
      transcript.keyAfter (Cursor.keyOrEmpty window.start) = [] := by
  have fetches := fetch_fetches pager plan window history
  rw [fetched] at fetches
  have soon : pager.clock final < budget pager.settings window.start :=
    inTime final (by rw [between.history_eq]; exact List.prefix_append _ _)
  generalize found : (Except.ok page : Except StoreFailure Page) = outcome at fetches
  cases fetches with
  | search _ =>
      cases found
  | direct notSearch noSkip fills =>
      obtain ⟨filling, recorded⟩ := fills.calls notSearch
      obtain rfl := recorded.between.unique between
      simpa [noSkip] using recorded.next soon page found.symm
  | rejected _ _ _ =>
      cases found
  | short notSearch _ skips few =>
      cases found
      obtain ⟨items, _⟩ := skips.ends notSearch between soon
      simp [← items, few]
  | complete notSearch _ skips reaches _ =>
      cases found
      obtain ⟨items, cursor⟩ := skips.ends notSearch between soon
      rw [cut_next_eq_none_iff, ← Cursor.keyOrEmpty_eq_nil_iff, cursor, ← items]
      simp [Nat.not_lt.mpr reaches]
  | late _ _ _ _ _ spent =>
      exact absurd spent (Nat.not_le.mpr soon)
  | @further skipped logged _ notSearch _ skips reaches _ early fills =>
      obtain ⟨skipping, skipRecorded⟩ := skips.recorded notSearch (Reaches.not_start _ _)
      obtain ⟨filling, recorded⟩ := fills.calls notSearch
      obtain ⟨items, cursor⟩ := skips.ends notSearch skipRecorded.between early
      obtain rfl := (skipRecorded.between.append recorded.between).unique between
      have enough : ¬ (skipping ++ filling).gathered.length < window.skip := by
        rw [Transcript.gathered_append, List.length_append, ← items]
        omega
      rw [recorded.next soon page found.symm, cursor, ← Transcript.keyAfter_append]
      simp only [enough, false_or]

/-- If the time is not spent and the store has answered, a page has no cursor exactly if the last
answer had no key to go on after, or fewer items were gathered than are to be skipped. -/
theorem fetch_next_eq_none_iff
    (inTime : ∀ later, history <+: later →
      pager.clock later < budget pager.settings window.start)
    (fetched : pager.fetch plan window history = (.ok page, final))
    (between : Transcript.Between pager.store history final transcript)
    {last : Output} (answered : transcript.outputs.getLast? = some last) :
    page.next = none ↔ last.lastKey = [] ∨ transcript.gathered.length < window.skip := by
  rw [next_eq_none_iff inTime fetched between, or_comm]
  simp [Transcript.keyAfter, answered]

/-- A pager over the five rows that makes one call for each sweep. -/
def scarcePager : Pager :=
  { samplePager with settings := { PagingSettings.default with maxRounds := 1 } }

/-- The call that begins a scan of the five rows, of which the first one is examined. -/
def firstExchange (limit : Nat) : Exchange where
  call := .scan (samplePlan.statement.scanAfter [] (some limit))
  answer := .ok (sampleRows.answer 0 [])

/-- The call behind it, for which the next three rows are examined. -/
def secondExchange (limit : Nat) : Exchange where
  call := .scan (samplePlan.statement.scanAfter (sampleRow "1" true).key.key (some limit))
  answer := .ok (sampleRows.answer 2 (sampleRow "1" true).key.key)

/-- One result is skipped, then the round ceiling ends a page that wants five items after two. The
last row is left, and the page has a cursor for it. -/
theorem fetch_next_eq_none_iff_scarce :
    ∃ page final, scarcePager.fetch samplePlan ⟨5, 1, none, .lenient⟩ [] = (.ok page, final) ∧
      page.items = [(sampleRow "3" true).item, (sampleRow "4" true).item] ∧
      page.next = some (sampleRow "4" true).key ∧
      (page.next = none ↔
        (sampleRows.answer 2 (sampleRow "1" true).key.key).lastKey = [] ∨
          (Transcript.gathered [firstExchange 1, secondExchange 5]).length < 1) := by
  have fetched : scarcePager.fetch samplePlan ⟨5, 1, none, .lenient⟩ [] =
      (.ok ⟨[(sampleRow "3" true).item, (sampleRow "4" true).item], 2,
        some (sampleRow "4" true).key, 4, 2⟩,
        [(firstExchange 1).call, (secondExchange 5).call]) := by
    rfl
  have between : Transcript.Between scarcePager.store []
      [(firstExchange 1).call, (secondExchange 5).call] [firstExchange 1, secondExchange 5] :=
    .cons rfl (.single rfl)
  refine ⟨_, _, fetched, rfl, rfl, ?_⟩
  exact fetch_next_eq_none_iff (fun _ _ => Nat.zero_lt_succ _) fetched between rfl

/-- A page without a cursor need not be the last one: here three results are to be skipped, the
round ceiling ends the skipping after one, and the store has told where to go on. -/
theorem fetch_next_none_before_end :
    ¬ ∀ (pager : Pager) (plan : StorePlan) (window : PageWindow) (history final : History)
        (page : Page) (transcript : Transcript) (last : Output),
      (∀ later, history <+: later →
        pager.clock later < budget pager.settings window.start) →
      pager.fetch plan window history = (.ok page, final) →
      Transcript.Between pager.store history final transcript →
      transcript.outputs.getLast? = some last →
      page.next = none → last.lastKey = [] := by
  intro finished
  have ended := finished scarcePager samplePlan ⟨2, 3, none, .lenient⟩ [] _ _ [firstExchange 3] _
    (fun _ _ => Nat.zero_lt_succ _) rfl (.single rfl) rfl rfl
  exact absurd ended (by decide)

end Pager

end DocQuery
