import DocQuery.Settings
import DocQuery.Paging.Cursor
import DocQuery.Store.Basic
import DocQuery.Store.Plan

/-!
# Fetching pages

A page is gathered by calling a store as often as needed, each time after the last key of the
answer before. One such sweep gathers at least a target number of items, or everything if the
target is zero. If results are to be skipped, a first sweep gathers those; what it gathers
beyond them belongs to the page. A sweep also ends after a number of rounds, when the time is
spent, or at a failure of the store.
-/

namespace DocQuery

/-- What a failure of the store does to a page: it replaces the page, or ends it. -/
inductive FailurePolicy where
  | strict
  | lenient
deriving DecidableEq, Repr

/-- The policy for a switch. -/
def FailurePolicy.ofStrict (strict : Bool) : FailurePolicy :=
  if strict then .strict else .lenient

/-- Which page is wanted. A limit of zero is none. -/
structure PageWindow where
  limit : Nat
  skip : Nat
  start : Option Cursor
  policy : FailurePolicy
deriving DecidableEq

/-- A page of results, with the number of its items. Without a cursor there is nothing more to
read, or the time was spent. -/
structure Page where
  items : List Item
  size : Nat
  next : Option Cursor
  scanned : Nat
  rounds : Nat
deriving DecidableEq

/-- Why a sweep ended: nothing is left to read, the target is reached, the rounds are used up,
the time is spent, or the store failed. -/
inductive SweepEnd where
  | exhausted
  | filled
  | ceiling
  | budget
  | failed
deriving DecidableEq, Repr

/-- What a sweep has gathered, and where it would go on. -/
structure Sweep where
  items : List Item
  cursor : Option Cursor
  stop : SweepEnd
  rounds : Nat
  scanned : Nat
deriving DecidableEq

/-- What pages are fetched with. The clock tells the time since a fetch began, in
milliseconds, by the calls made so far. -/
structure Pager where
  store : Store
  clock : History → Nat
  settings : PagingSettings

namespace Sweep

def start (cursor : Option Cursor) : Sweep :=
  ⟨[], cursor, .exhausted, 0, 0⟩

/-- A sweep after one more answer. -/
def add (sofar : Sweep) (output : Output) : Sweep :=
  { sofar with
    items := sofar.items ++ output.items
    cursor := Cursor.ofKey? output.lastKey
    rounds := sofar.rounds + 1
    scanned := sofar.scanned + output.scannedCount.toNat }

end Sweep

namespace Pager

/-- The result of calls to a store, and all calls made until then. -/
abbrev Logged (α : Type) := α × History

/-- Calls the store in the way of a plan. A search plan is none for a key-value store. -/
def call (pager : Pager) (plan : StorePlan) (limit : Option Int) (cursor : Option Cursor)
    (history : History) : Logged (Except StoreFailure Output) :=
  let startKey := Cursor.keyOrEmpty cursor
  match plan.method with
  | .indexedQuery =>
      let request := plan.statement.queryAfter startKey limit
      (pager.store.query history request, history ++ [.query request])
  | .fullScan =>
      let request := plan.statement.scanAfter startKey limit
      (pager.store.scan history request, history ++ [.scan request])
  | .search =>
      (.error (.ofMessage .validation "search plans cannot run against a key-value backend"),
        history)

/-- The limit of a call: what is missing to the target, or the page size if there is no
target. -/
def callLimit (settings : PagingSettings) (target gathered : Nat) : Option Int :=
  let wanted := if target = 0 then settings.pageSize else some (target - gathered)
  wanted.map fun number => (min number Word.greatestInt32 : Nat)

/-- Goes on with a sweep for as many rounds as are left. -/
def sweep (pager : Pager) (plan : StorePlan) (budget : Nat) (policy : FailurePolicy)
    (target : Nat) (left : Nat) (sofar : Sweep) (history : History) :
    Logged (Except StoreFailure Sweep) :=
  if 0 < sofar.rounds ∧ budget ≤ pager.clock history then
    (.ok { sofar with cursor := none, stop := .budget }, history)
  else
    match left with
    | 0 => (.ok { sofar with stop := .ceiling }, history)
    | left + 1 =>
        let limit := callLimit pager.settings target sofar.items.length
        match pager.call plan limit sofar.cursor history with
        | (.error failure, history) =>
            match policy with
            | .strict => (.error failure, history)
            | .lenient =>
                (.ok { sofar with stop := .failed, rounds := sofar.rounds + 1 }, history)
        | (.ok output, history) =>
            let sofar := sofar.add output
            if sofar.cursor.isNone then
              (.ok { sofar with stop := .exhausted }, history)
            else if 0 < target ∧ target ≤ sofar.items.length then
              (.ok { sofar with stop := .filled }, history)
            else
              sweep pager plan budget policy target left sofar history

/-- The cursor to go on after the last item kept of a page that was cut. If that item lacks a
key attribute, reading goes on after the key that the store reported. -/
def resumeAfter (kept : List Item) (past : Cursor) (keyFields : List String) : Cursor :=
  let fields := if keyFields.isEmpty then Dictionary.keys past.key else keyFields
  ((kept.getLast?).bind fun item => Cursor.ofItem? item fields).getD past

/-- The page of what was gathered, cut to the limit. -/
def cut (items : List Item) (limit : Nat) (cursor : Option Cursor) (keyFields : List String)
    (scanned rounds : Nat) : Page :=
  if 0 < limit ∧ limit < items.length then
    let kept := items.take limit
    ⟨kept, kept.length, cursor.map fun past => resumeAfter kept past keyFields, scanned, rounds⟩
  else
    ⟨items, items.length, cursor, scanned, rounds⟩

def budget (settings : PagingSettings) (start : Option Cursor) : Nat :=
  if start.isSome then settings.continuationBudget else settings.firstCallBudget

/-- The sweep for the items of the page, beside those `carried` over from skipping, and the
page. -/
def fillPage (pager : Pager) (plan : StorePlan) (window : PageWindow) (carried : List Item)
    (start : Option Cursor) (scanned rounds : Nat) (history : History) :
    Logged (Except StoreFailure Page) :=
  let target := if window.limit = 0 then 0 else window.limit - carried.length
  let budget := budget pager.settings window.start
  match pager.sweep plan budget window.policy target pager.settings.maxRounds (.start start)
    history with
  | (.error failure, history) => (.error failure, history)
  | (.ok swept, history) =>
      (.ok (cut (carried ++ swept.items) window.limit swept.cursor plan.keyFields
        (scanned + swept.scanned) (rounds + swept.rounds)), history)

/-- What follows the sweep over the results to skip. -/
def afterSkip (pager : Pager) (plan : StorePlan) (window : PageWindow) (skipped : Sweep)
    (history : History) : Logged (Except StoreFailure Page) :=
  if skipped.items.length < window.skip then
    (.ok ⟨[], 0, none, skipped.scanned, skipped.rounds⟩, history)
  else
    let carried := skipped.items.drop window.skip
    let page (cursor : Option Cursor) :=
      cut carried window.limit cursor plan.keyFields skipped.scanned skipped.rounds
    if skipped.cursor.isNone ∨ (0 < window.limit ∧ window.limit ≤ carried.length) then
      (.ok (page skipped.cursor), history)
    else if budget pager.settings window.start ≤ pager.clock history then
      (.ok (page none), history)
    else
      pager.fillPage plan window carried skipped.cursor skipped.scanned skipped.rounds history

def fetch (pager : Pager) (plan : StorePlan) (window : PageWindow) (history : History) :
    Logged (Except StoreFailure Page) :=
  if plan.method = .search then
    (.error (.ofMessage .validation "search plans are paged by the search engine itself"),
      history)
  else if window.skip = 0 then
    pager.fillPage plan window [] window.start 0 0 history
  else
    let budget := budget pager.settings window.start
    match pager.sweep plan budget window.policy window.skip pager.settings.maxRounds
      (.start window.start) history with
    | (.error failure, history) => (.error failure, history)
    | (.ok skipped, history) => pager.afterSkip plan window skipped history

end Pager

end DocQuery
