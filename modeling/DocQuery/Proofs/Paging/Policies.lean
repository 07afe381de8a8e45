import DocQuery.Proofs.Paging.Calls
import DocQuery.Proofs.Paging.Window

/-!
# Strict and lenient fetches

The policy for failures decides nothing before a store fails. So a strict and a lenient sweep go
through the same rounds up to the first failed call, which is the last one of both, and the same
holds of fetches with their two sweeps. There the strict fetch gives the failure, and the lenient one
a page of everything that was gathered before, without what is to be skipped.
-/

namespace DocQuery

namespace Pager

/-- What the same calls lead to under the strict policy and under the lenient one. If no call fails
it is the same, and otherwise the failure of the last call on one side, and on the other what is kept
of the items gathered before. -/
inductive Tolerates {α : Type} (store : Store) (history : History)
    (Keeps : List Item → α → Prop) :
    Logged (Except StoreFailure α) → Logged (Except StoreFailure α) → Prop
  | answered {result : α} {logged : History} {transcript : Transcript} :
      Transcript.Between store history logged transcript →
      transcript.Succeeds →
      Tolerates store history Keeps (.ok result, logged) (.ok result, logged)
  | failed {kept : α} {logged : History} {earlier : Transcript} {call : StoreCall}
      {failure : StoreFailure} :
      Transcript.Between store history logged (earlier ++ [⟨call, .error failure⟩]) →
      earlier.Succeeds →
      Keeps earlier.gathered kept →
      Tolerates store history Keeps (.error failure, logged) (.ok kept, logged)

/-- Calls that were answered before come before those of both sides. -/
theorem Tolerates.after_answers {α : Type} {store : Store} {history middle : History}
    {Keeps Further : List Item → α → Prop} {strict lenient : Logged (Except StoreFailure α)}
    {before : Transcript} (between : Transcript.Between store history middle before)
    (succeeds : before.Succeeds) (tolerates : Tolerates store middle Keeps strict lenient)
    (keeps : ∀ gathered kept, Keeps gathered kept → Further (before.gathered ++ gathered) kept) :
    Tolerates store history Further strict lenient := by
  cases tolerates with
  | answered betweenBehind succeedsBehind =>
      exact .answered (between.append betweenBehind) (succeeds.append succeedsBehind)
  | failed betweenBehind succeedsBehind keepsBehind =>
      have joined := between.append betweenBehind
      rw [← List.append_assoc] at joined
      refine .failed joined (succeeds.append succeedsBehind) ?_
      rw [Transcript.gathered_append]
      exact keeps _ _ keepsBehind

variable (pager : Pager) {plan : StorePlan}

/-- The items that a sweep holds after a failure, which are too few for its target. -/
def HoldsShort (target : Nat) (sofar : Sweep) (gathered : List Item) (kept : Sweep) : Prop :=
  kept.items = sofar.items ++ gathered ∧ ¬ Reaches target kept

theorem sweep_tolerates {target : Nat} {sofar : Sweep} (notSearch : plan.method ≠ .search)
    (short : ¬ Reaches target sofar) (budget left : Nat) (history : History) :
    Tolerates pager.store history (HoldsShort target sofar)
      (pager.sweep plan budget .strict target left sofar history)
      (pager.sweep plan budget .lenient target left sofar history) := by
  induction left generalizing sofar history with
  | zero =>
      unfold sweep
      split
      · exact .answered .nil Transcript.succeeds_nil
      · exact .answered .nil Transcript.succeeds_nil
  | succ left inductionHypothesis =>
      unfold sweep
      by_cases spent : 0 < sofar.rounds ∧ budget ≤ pager.clock history
      · simp only [if_pos spent]
        exact .answered .nil Transcript.succeeds_nil
      · simp only [if_neg spent]
        rcases called : pager.call plan (callLimit pager.settings target sofar.items.length)
          sofar.cursor history with ⟨answer, logged⟩
        obtain ⟨call, between, _⟩ := nextCall_recorded notSearch short called
        cases answer with
        | error failure =>
            have alone : Transcript.Between pager.store history logged
                ([] ++ [⟨call, .error failure⟩]) := between
            exact .failed alone Transcript.succeeds_nil ⟨by simp, short⟩
        | ok output =>
            have succeeds : Transcript.Succeeds [⟨call, .ok output⟩] :=
              Transcript.succeeds_nil.cons
            dsimp only
            by_cases ended : (sofar.add output).cursor.isNone = true
            · simp only [if_pos ended]
              exact .answered between succeeds
            · simp only [if_neg ended]
              by_cases reaches : Reaches target (sofar.add output)
              · simp only [if_pos (show 0 < target ∧ _ from reaches)]
                exact .answered between succeeds
              · simp only [if_neg (show ¬ (0 < target ∧ _) from reaches)]
                refine (inductionHypothesis reaches logged).after_answers between succeeds ?_
                rintro gathered kept ⟨items, keptShort⟩
                exact ⟨by simp [items, Sweep.add], keptShort⟩

/-- What was gathered for a page that has room for more is not cut. -/
theorem cut_items_of_short {window : PageWindow} {items : List Item} {target : Nat}
    {carried : List Item} (isTarget : target = pageTarget window carried)
    (room : 0 < window.limit → carried.length < window.limit)
    (short : ¬ (0 < target ∧ target ≤ items.length)) (cursor : Option Cursor)
    (keyFields : List String) (scanned rounds : Nat) :
    (cut (carried ++ items) window.limit cursor keyFields scanned rounds).items =
      carried ++ items := by
  have fits : ¬ (0 < window.limit ∧ window.limit < (carried ++ items).length) := by
    rintro ⟨limited, tooMany⟩
    have hasRoom := room limited
    rw [pageTarget, if_neg (Nat.ne_of_gt limited)] at isTarget
    rw [List.length_append] at tooMany
    omega
  rw [cut, if_neg fits]

/-- After a failure the page has the items carried over and all that were gathered for it. -/
theorem fillPage_tolerates (window : PageWindow) (carried : List Item)
    (notSearch : plan.method ≠ .search)
    (room : 0 < window.limit → carried.length < window.limit) (start : Option Cursor)
    (scanned rounds : Nat) (history : History) :
    Tolerates pager.store history (fun gathered page => page.items = carried ++ gathered)
      (pager.fillPage plan { window with policy := .strict } carried start scanned rounds history)
      (pager.fillPage plan { window with policy := .lenient } carried start scanned rounds
        history) := by
  have tolerates := sweep_tolerates pager notSearch
    (Reaches.not_start (pageTarget window carried) start)
    (budget pager.settings window.start) pager.settings.maxRounds history
  unfold fillPage
  simp only [pageTarget] at tolerates ⊢
  generalize pager.sweep plan _ .strict _ _ _ _ = strict at tolerates ⊢
  generalize pager.sweep plan _ .lenient _ _ _ _ = lenient at tolerates ⊢
  cases tolerates with
  | answered between succeeds =>
      exact .answered between succeeds
  | failed between succeeds keeps =>
      refine .failed between succeeds ?_
      obtain ⟨items, short⟩ := keeps
      rw [cut_items_of_short rfl room short, items]
      rfl

/-- What follows the results to skip, which were read without a failure. -/
theorem afterSkip_tolerates {skipped : Sweep} {history logged : History} {skipping : Transcript}
    (notSearch : plan.method ≠ .search) (window : PageWindow)
    (between : Transcript.Between pager.store history logged skipping)
    (succeeds : skipping.Succeeds) (items : skipped.items = skipping.gathered) :
    Tolerates pager.store history (fun gathered page => page.items = gathered.drop window.skip)
      (pager.afterSkip plan { window with policy := .strict } skipped logged)
      (pager.afterSkip plan { window with policy := .lenient } skipped logged) := by
  unfold afterSkip
  dsimp only
  by_cases few : skipped.items.length < window.skip
  · simp only [if_pos few]
    exact .answered between succeeds
  · simp only [if_neg few]
    split
    · exact .answered between succeeds
    · next incomplete =>
        split
        · exact .answered between succeeds
        · have room : 0 < window.limit →
              (skipped.items.drop window.skip).length < window.limit := by
            intro limited
            by_contra full
            exact incomplete (.inr ⟨limited, Nat.le_of_not_lt full⟩)
          refine (fillPage_tolerates pager window _ notSearch room skipped.cursor skipped.scanned skipped.rounds
            logged).after_answers between succeeds ?_
          intro gathered page kept
          rw [kept, ← items, List.drop_append_of_le_length (Nat.le_of_not_lt few)]

/-- After a failure the page has all that was gathered, without what is to be skipped. -/
theorem fetch_tolerates (notSearch : plan.method ≠ .search) (window : PageWindow)
    (history : History) :
    Tolerates pager.store history (fun gathered page => page.items = gathered.drop window.skip)
      (pager.fetch plan { window with policy := .strict } history)
      (pager.fetch plan { window with policy := .lenient } history) := by
  unfold fetch
  simp only [if_neg notSearch]
  by_cases noSkip : window.skip = 0
  · simp only [if_pos noSkip]
    have filled := fillPage_tolerates pager window [] notSearch id window.start 0 0 history
    simpa [noSkip] using filled
  · simp only [if_neg noSkip]
    have positive : 0 < window.skip := Nat.pos_of_ne_zero noSkip
    have tolerates := sweep_tolerates pager notSearch
      (Reaches.not_start window.skip window.start)
      (budget pager.settings window.start) pager.settings.maxRounds history
    have sweeps := sweep_sweeps pager plan (budget pager.settings window.start) .strict
      window.skip pager.settings.maxRounds (.start window.start) history
    generalize pager.sweep plan _ .strict _ _ _ _ = strict at tolerates sweeps ⊢
    generalize pager.sweep plan _ .lenient _ _ _ _ = lenient at tolerates ⊢
    cases tolerates with
    | @answered skipped logged skipping between succeeds =>
        obtain ⟨recordedSkipping, recorded⟩ := sweeps.recorded notSearch (Reaches.not_start _ _)
        obtain rfl := recorded.between.unique between
        have items : skipped.items = recordedSkipping.gathered := by
          simpa [Sweep.start] using (recorded.ends skipped rfl).items
        exact afterSkip_tolerates pager notSearch window between succeeds items
    | @failed skipped _ earlier _ _ between succeeds keeps =>
        obtain ⟨items, short⟩ := keeps
        have gathered : skipped.items = earlier.gathered := by
          simpa [Sweep.start] using items
        have few : skipped.items.length < window.skip := by
          by_contra enough
          exact short ⟨positive, Nat.le_of_not_lt enough⟩
        -- a failure while skipping ends the fetch, with nothing left to show
        have nothing : earlier.gathered.drop window.skip = [] := by
          rw [← gathered, List.drop_eq_nil_iff]
          exact Nat.le_of_lt few
        simp only [afterSkip, if_pos few]
        exact .failed between succeeds nothing.symm

/-- A strict and a lenient fetch of the same window make the same calls, of which none follows a
failed one. -/
structure Agree (pager : Pager) (plan : StorePlan) (window : PageWindow) (history : History)
    (transcript : Transcript) : Prop where
  strictCalls : Transcript.Between pager.store history
    (pager.fetch plan { window with policy := .strict } history).2 transcript
  lenientCalls : Transcript.Between pager.store history
    (pager.fetch plan { window with policy := .lenient } history).2 transcript
  stops : transcript.Each fun earlier _ => earlier.Succeeds
  /-- The strict fetch gives a page if no call fails, and the lenient one gives the same page. -/
  answered : ∀ page,
    (pager.fetch plan { window with policy := .strict } history).1 = .ok page →
      transcript.Succeeds ∧
        (pager.fetch plan { window with policy := .lenient } history).1 = .ok page
  /-- The failure is that of the last call, and the lenient page has all that was gathered before,
  without what is to be skipped. -/
  failed : ∀ failure,
    (pager.fetch plan { window with policy := .strict } history).1 = .error failure →
      ∃ (earlier : Transcript) (call : StoreCall) (page : Page),
        transcript = earlier ++ [⟨call, .error failure⟩] ∧
        (pager.fetch plan { window with policy := .lenient } history).1 = .ok page ∧
        page.items = earlier.gathered.drop window.skip

/-- The policies differ in how a failure is reported, and in nothing else. -/
theorem fetch_policies (notSearch : plan.method ≠ .search) (window : PageWindow)
    (history : History) : ∃ transcript, Agree pager plan window history transcript := by
  have tolerates := fetch_tolerates pager notSearch window history
  obtain ⟨skipping, filling, calls⟩ :=
    fetch_calls pager plan { window with policy := .strict } history
  refine ⟨skipping ++ filling, ?_⟩
  have stops : (skipping ++ filling).Each fun earlier _ => earlier.Succeeds :=
    calls.follows.imp fun _ _ follows => follows.1
  have strictCalls := calls.between
  generalize strictFetched : pager.fetch plan { window with policy := .strict } history = strict
    at tolerates strictCalls
  generalize lenientFetched : pager.fetch plan { window with policy := .lenient } history = lenient
    at tolerates
  cases tolerates with
  | answered between succeeds =>
      obtain same := strictCalls.unique between
      exact {
        strictCalls := strictFetched ▸ strictCalls
        lenientCalls := lenientFetched ▸ strictCalls
        stops
        answered := by
          intro page fetched
          refine ⟨same ▸ succeeds, ?_⟩
          rw [lenientFetched, ← fetched, strictFetched]
        failed := by
          intro failure fetched
          rw [strictFetched] at fetched
          cases fetched }
  | failed between succeeds keeps =>
      obtain same := strictCalls.unique between
      exact {
        strictCalls := strictFetched ▸ strictCalls
        lenientCalls := lenientFetched ▸ strictCalls
        stops
        answered := by
          intro page fetched
          rw [strictFetched] at fetched
          cases fetched
        failed := by
          intro failure fetched
          rw [strictFetched] at fetched
          cases fetched
          exact ⟨_, _, _, same, congrArg Prod.fst lenientFetched, keeps⟩ }

/-- A pager over the five rows, whose store fails to answer its third call. -/
def brittlePager : Pager :=
  { samplePager with
    store :=
      { samplePager.store with
        scan := fun history request =>
          if history.length = 2 then .error (.ofMessage .throttled "slow down")
          else samplePager.store.scan history request } }

/-- One result is skipped by the first call, and the third one fails while the page is filled. What
the second one gathered is lost to the strict fetch only. -/
theorem fetch_policies_brittle :
    ∃ transcript page, Agree brittlePager samplePlan ⟨5, 1, none, .strict⟩ [] transcript ∧
      (brittlePager.fetch samplePlan ⟨5, 1, none, .strict⟩ []).1 =
        .error (.ofMessage .throttled "slow down") ∧
      (brittlePager.fetch samplePlan ⟨5, 1, none, .lenient⟩ []).1 = .ok page ∧
      page.items = [(sampleRow "3" true).item, (sampleRow "4" true).item] ∧ page.rounds = 3 := by
  have notSearch : samplePlan.method ≠ .search := by
    decide
  obtain ⟨transcript, agree⟩ :=
    fetch_policies brittlePager notSearch ⟨5, 1, none, .strict⟩ []
  exact ⟨transcript, _, agree, rfl, rfl, rfl, rfl⟩

end Pager

end DocQuery
