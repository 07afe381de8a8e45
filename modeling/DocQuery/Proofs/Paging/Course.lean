import DocQuery.Paging.Pager

/-!
# How a fetch goes

A sweep and a fetch can end in a few ways each. They are listed here once, with everything that
decides between them, so that what holds of every fetch is proved way by way.
-/

namespace DocQuery

/-- Whether a store answered a call without a failure. -/
def Store.answers (store : Store) (history : History) : StoreCall → Bool
  | .describe table => (store.describe history table).isOk
  | .query request => (store.query history request).isOk
  | .scan request => (store.scan history request).isOk

namespace Pager

variable {pager : Pager} {plan : StorePlan} {window : PageWindow}

theorem call_extends {limit : Option Int} {cursor : Option Cursor} {history logged : History}
    {result : Except StoreFailure Output}
    (called : pager.call plan limit cursor history = (result, logged)) :
    history <+: logged := by
  have extended : history <+: (pager.call plan limit cursor history).2 := by
    unfold call
    split <;> simp
  simpa [called] using extended

/-- A call of a plan for a key-value store is logged, and fails only if the store does. -/
theorem call_answered {limit : Option Int} {cursor : Option Cursor} {history logged : History}
    {result : Except StoreFailure Output} (notSearch : plan.method ≠ .search)
    (called : pager.call plan limit cursor history = (result, logged)) :
    ∃ request, logged = history ++ [request] ∧
      result.isOk = pager.store.answers history request := by
  unfold call at called
  split at called
  · cases called
    exact ⟨_, rfl, rfl⟩
  · cases called
    exact ⟨_, rfl, rfl⟩
  · next search =>
      exact absurd search notSearch

/-- The call that a sweep makes next. -/
def nextCall (pager : Pager) (plan : StorePlan) (target : Nat) (sofar : Sweep)
    (history : History) : Logged (Except StoreFailure Output) :=
  pager.call plan (callLimit pager.settings target sofar.items.length) sofar.cursor history

/-- The time is spent before another round. -/
def Spent (pager : Pager) (budget : Nat) (sofar : Sweep) (history : History) : Prop :=
  0 < sofar.rounds ∧ budget ≤ pager.clock history

/-- Enough was gathered for a target. -/
def Reaches (target : Nat) (sofar : Sweep) : Prop :=
  0 < target ∧ target ≤ sofar.items.length

/-- The ways in which a sweep ends, and the one in which it goes on. -/
inductive Sweeps (pager : Pager) (plan : StorePlan) (budget : Nat) (policy : FailurePolicy)
    (target : Nat) :
    Nat → Sweep → History → Logged (Except StoreFailure Sweep) → Prop
  | spent {left : Nat} {sofar : Sweep} {history : History} :
      pager.Spent budget sofar history →
      Sweeps pager plan budget policy target left sofar history
        (.ok { sofar with cursor := none, stop := .budget }, history)
  | ceiling {sofar : Sweep} {history : History} :
      ¬ pager.Spent budget sofar history →
      Sweeps pager plan budget policy target 0 sofar history
        (.ok { sofar with stop := .ceiling }, history)
  | rejected {left : Nat} {sofar : Sweep} {history logged : History} {failure : StoreFailure} :
      ¬ pager.Spent budget sofar history →
      pager.nextCall plan target sofar history = (.error failure, logged) →
      policy = .strict →
      Sweeps pager plan budget policy target (left + 1) sofar history (.error failure, logged)
  | failed {left : Nat} {sofar : Sweep} {history logged : History} {failure : StoreFailure} :
      ¬ pager.Spent budget sofar history →
      pager.nextCall plan target sofar history = (.error failure, logged) →
      policy = .lenient →
      Sweeps pager plan budget policy target (left + 1) sofar history
        (.ok { sofar with stop := .failed, rounds := sofar.rounds + 1 }, logged)
  | exhausted {left : Nat} {sofar : Sweep} {history logged : History} {output : Output} :
      ¬ pager.Spent budget sofar history →
      pager.nextCall plan target sofar history = (.ok output, logged) →
      (sofar.add output).cursor = none →
      Sweeps pager plan budget policy target (left + 1) sofar history
        (.ok { sofar.add output with stop := .exhausted }, logged)
  | filled {left : Nat} {sofar : Sweep} {history logged : History} {output : Output} :
      ¬ pager.Spent budget sofar history →
      pager.nextCall plan target sofar history = (.ok output, logged) →
      (sofar.add output).cursor ≠ none →
      Reaches target (sofar.add output) →
      Sweeps pager plan budget policy target (left + 1) sofar history
        (.ok { sofar.add output with stop := .filled }, logged)
  | further {left : Nat} {sofar : Sweep} {history logged : History} {output : Output}
      {result : Logged (Except StoreFailure Sweep)} :
      ¬ pager.Spent budget sofar history →
      pager.nextCall plan target sofar history = (.ok output, logged) →
      (sofar.add output).cursor ≠ none →
      ¬ Reaches target (sofar.add output) →
      Sweeps pager plan budget policy target left (sofar.add output) logged result →
      Sweeps pager plan budget policy target (left + 1) sofar history result

theorem sweep_sweeps (pager : Pager) (plan : StorePlan) (budget : Nat) (policy : FailurePolicy)
    (target left : Nat) (sofar : Sweep) (history : History) :
    Sweeps pager plan budget policy target left sofar history
      (pager.sweep plan budget policy target left sofar history) := by
  induction left generalizing sofar history with
  | zero =>
      rw [sweep]
      split
      · next spent => exact .spent spent
      · next inTime => exact .ceiling inTime
  | succ left inductionHypothesis =>
      rw [sweep]
      split
      · next spent => exact .spent spent
      · next inTime =>
          dsimp only
          split
          · next called =>
              cases policyFound : policy with
              | strict =>
                  exact .rejected inTime called rfl
              | lenient =>
                  exact .failed inTime called rfl
          · next called =>
              split
              · next ended =>
                  exact .exhausted inTime called (by simpa using ended)
              · next live =>
                  have cursorLeft := fun ended => live (Option.isNone_iff_eq_none.mpr ended)
                  split
                  · next reaches =>
                      exact .filled inTime called cursorLeft reaches
                  · next short =>
                      exact .further inTime called cursorLeft short (inductionHypothesis _ _)

theorem Sweeps.extends_history
    {budget target left : Nat} {policy : FailurePolicy} {sofar : Sweep} {history : History}
    {result : Logged (Except StoreFailure Sweep)}
    (sweeps : Sweeps pager plan budget policy target left sofar history result) :
    history <+: result.2 := by
  induction sweeps with
  | spent _ =>
      exact List.prefix_rfl
  | ceiling _ =>
      exact List.prefix_rfl
  | rejected _ called _ =>
      exact call_extends called
  | failed _ called _ =>
      exact call_extends called
  | exhausted _ called _ =>
      exact call_extends called
  | filled _ called _ _ =>
      exact call_extends called
  | further _ called _ _ _ inductionHypothesis =>
      exact (call_extends called).trans inductionHypothesis

/-- How many items the sweep for a page has to gather beside those carried over. -/
def pageTarget (window : PageWindow) (carried : List Item) : Nat :=
  if window.limit = 0 then 0 else window.limit - carried.length

/-- The ways in which the sweep for a page ends. -/
inductive Fills (pager : Pager) (plan : StorePlan) (window : PageWindow) (carried : List Item)
    (start : Option Cursor) (scanned rounds : Nat) (history : History) :
    Logged (Except StoreFailure Page) → Prop
  | rejected {failure : StoreFailure} {logged : History} :
      Sweeps pager plan (budget pager.settings window.start) window.policy
        (pageTarget window carried) pager.settings.maxRounds (.start start) history
        (.error failure, logged) →
      Fills pager plan window carried start scanned rounds history (.error failure, logged)
  | swept {final : Sweep} {logged : History} :
      Sweeps pager plan (budget pager.settings window.start) window.policy
        (pageTarget window carried) pager.settings.maxRounds (.start start) history
        (.ok final, logged) →
      Fills pager plan window carried start scanned rounds history
        (.ok (cut (carried ++ final.items) window.limit final.cursor plan.keyFields
          (scanned + final.scanned) (rounds + final.rounds)), logged)

theorem fillPage_fills (pager : Pager) (plan : StorePlan) (window : PageWindow)
    (carried : List Item) (start : Option Cursor) (scanned rounds : Nat) (history : History) :
    Fills pager plan window carried start scanned rounds history
      (pager.fillPage plan window carried start scanned rounds history) := by
  have sweeps := sweep_sweeps pager plan (budget pager.settings window.start) window.policy
    (pageTarget window carried) pager.settings.maxRounds (.start start) history
  rw [fillPage]
  rw [pageTarget] at sweeps
  split
  · next swept =>
      rw [swept] at sweeps
      exact .rejected sweeps
  · next swept =>
      rw [swept] at sweeps
      exact .swept sweeps

theorem Fills.extends_history {carried : List Item} {start : Option Cursor}
    {scanned rounds : Nat} {history : History} {result : Logged (Except StoreFailure Page)}
    (fills : Fills pager plan window carried start scanned rounds history result) :
    history <+: result.2 := by
  cases fills with
  | rejected sweeps =>
      exact sweeps.extends_history
  | swept sweeps =>
      exact sweeps.extends_history

/-- The sweep over the results to skip. -/
def Skips (pager : Pager) (plan : StorePlan) (window : PageWindow) (history : History)
    (result : Logged (Except StoreFailure Sweep)) : Prop :=
  Sweeps pager plan (budget pager.settings window.start) window.policy window.skip
    pager.settings.maxRounds (.start window.start) history result

/-- Nothing is left to read after skipping, or the page is full of what was carried over. -/
def Complete (window : PageWindow) (skipped : Sweep) : Prop :=
  skipped.cursor = none ∨
    (0 < window.limit ∧ window.limit ≤ (skipped.items.drop window.skip).length)

/-- The ways in which a fetch ends. -/
inductive Fetches (pager : Pager) (plan : StorePlan) (window : PageWindow) (history : History) :
    Logged (Except StoreFailure Page) → Prop
  | search :
      plan.method = .search →
      Fetches pager plan window history
        (.error (.ofMessage .validation "search plans are paged by the search engine itself"),
          history)
  | direct {result : Logged (Except StoreFailure Page)} :
      plan.method ≠ .search →
      window.skip = 0 →
      Fills pager plan window [] window.start 0 0 history result →
      Fetches pager plan window history result
  | rejected {failure : StoreFailure} {logged : History} :
      plan.method ≠ .search →
      0 < window.skip →
      Skips pager plan window history (.error failure, logged) →
      Fetches pager plan window history (.error failure, logged)
  | short {skipped : Sweep} {logged : History} :
      plan.method ≠ .search →
      0 < window.skip →
      Skips pager plan window history (.ok skipped, logged) →
      skipped.items.length < window.skip →
      Fetches pager plan window history
        (.ok ⟨[], 0, none, skipped.scanned, skipped.rounds⟩, logged)
  | complete {skipped : Sweep} {logged : History} :
      plan.method ≠ .search →
      0 < window.skip →
      Skips pager plan window history (.ok skipped, logged) →
      window.skip ≤ skipped.items.length →
      Complete window skipped →
      Fetches pager plan window history
        (.ok (cut (skipped.items.drop window.skip) window.limit skipped.cursor plan.keyFields
          skipped.scanned skipped.rounds), logged)
  | late {skipped : Sweep} {logged : History} :
      plan.method ≠ .search →
      0 < window.skip →
      Skips pager plan window history (.ok skipped, logged) →
      window.skip ≤ skipped.items.length →
      ¬ Complete window skipped →
      budget pager.settings window.start ≤ pager.clock logged →
      Fetches pager plan window history
        (.ok (cut (skipped.items.drop window.skip) window.limit none plan.keyFields
          skipped.scanned skipped.rounds), logged)
  | further {skipped : Sweep} {logged : History} {result : Logged (Except StoreFailure Page)} :
      plan.method ≠ .search →
      0 < window.skip →
      Skips pager plan window history (.ok skipped, logged) →
      window.skip ≤ skipped.items.length →
      ¬ Complete window skipped →
      pager.clock logged < budget pager.settings window.start →
      Fills pager plan window (skipped.items.drop window.skip) skipped.cursor skipped.scanned
        skipped.rounds logged result →
      Fetches pager plan window history result

theorem afterSkip_fetches {skipped : Sweep} {history logged : History}
    (notSearch : plan.method ≠ .search) (skips : 0 < window.skip)
    (swept : Skips pager plan window history (.ok skipped, logged)) :
    Fetches pager plan window history (pager.afterSkip plan window skipped logged) := by
  rw [afterSkip]
  dsimp only
  split
  · next few =>
      exact .short notSearch skips swept few
  · next enough =>
      have reaches : window.skip ≤ skipped.items.length := Nat.le_of_not_lt enough
      split
      · next done =>
          have complete : Complete window skipped :=
            done.imp_left Option.isNone_iff_eq_none.mp
          exact .complete notSearch skips swept reaches complete
      · next undone =>
          have incomplete : ¬ Complete window skipped :=
            fun complete => undone (complete.imp_left Option.isNone_iff_eq_none.mpr)
          split
          · next spent =>
              exact .late notSearch skips swept reaches incomplete spent
          · next inTime =>
              exact .further notSearch skips swept reaches incomplete (Nat.lt_of_not_le inTime)
                (fillPage_fills _ _ _ _ _ _ _ _)

theorem fetch_fetches (pager : Pager) (plan : StorePlan) (window : PageWindow)
    (history : History) :
    Fetches pager plan window history (pager.fetch plan window history) := by
  rw [fetch]
  split
  · next search =>
      exact .search search
  · next notSearch =>
      split
      · next noSkip =>
          exact .direct notSearch noSkip (fillPage_fills _ _ _ _ _ _ _ _)
      · next skip =>
          have skips : 0 < window.skip := Nat.pos_of_ne_zero skip
          have sweeps : Skips pager plan window history _ := sweep_sweeps _ _ _ _ _ _ _ _
          dsimp only
          split
          · next swept =>
              rw [swept] at sweeps
              exact .rejected notSearch skips sweeps
          · next swept =>
              rw [swept] at sweeps
              exact afterSkip_fetches notSearch skips sweeps

end Pager

end DocQuery
