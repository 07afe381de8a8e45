import DocQuery.Proofs.Paging.Sweep
import Mathlib.Data.List.Infix

/-!
# Which items a page has

Skipping and filling are two sweeps over the same rows, and what the first one gathers beyond
the results to skip is carried into the page. So a page is cut from items gathered from the
start of the window on, wherever the answers of the store begin and end.
-/

namespace DocQuery

/-- The items that a window shows of all that match. -/
def PageWindow.shown (window : PageWindow) (matching : List Item) : List Item :=
  if window.limit = 0 then matching.drop window.skip
  else (matching.drop window.skip).take window.limit

theorem PageWindow.shown_prefix (window : PageWindow) {items matching : List Item}
    (begins : items <+: matching) : window.shown items <+: matching.drop window.skip := by
  have dropped := begins.drop window.skip
  unfold shown
  split
  · exact dropped
  · exact (List.take_prefix _ _).trans dropped

theorem PageWindow.length_shown_le (window : PageWindow) (limited : 0 < window.limit)
    (items : List Item) : (window.shown items).length ≤ window.limit := by
  rw [shown, if_neg (by omega)]
  exact List.length_take_le _ _

/-- More items do not matter to a window that is full. -/
theorem PageWindow.shown_append (window : PageWindow) {items : List Item}
    (limited : 0 < window.limit) (full : window.skip + window.limit ≤ items.length)
    (others : List Item) : window.shown (items ++ others) = window.shown items := by
  unfold shown
  rw [if_neg (by omega), if_neg (by omega), List.drop_append_of_le_length (by omega),
    List.take_append_of_le_length (by simp; omega)]

theorem Listing.Reached.gathered_further {rows : Listing} {start middle cursor : Option Cursor}
    {items further : List Item} (reached : rows.Reached start items middle)
    (gathered : rows.Gathered middle further cursor) :
    rows.Gathered start (items ++ further) cursor := by
  refine ⟨?_, ?_⟩
  · rw [reached.matching_eq]
    exact (List.prefix_append_right_inj items).mpr gathered.1
  · intro next found
    exact reached.trans (gathered.2 next found)

namespace Pager

variable {pager : Pager} {plan : StorePlan} {rows : Listing} {window : PageWindow}
variable {history : History} {page : Page}

theorem cut_size (items : List Item) (limit : Nat) (cursor : Option Cursor)
    (keyFields : List String) (scanned rounds : Nat) :
    (cut items limit cursor keyFields scanned rounds).size =
      (cut items limit cursor keyFields scanned rounds).items.length := by
  unfold cut
  split <;> rfl

theorem Fills.size_eq {carried : List Item} {cursor : Option Cursor} {scanned rounds : Nat}
    {result : Logged (Except StoreFailure Page)}
    (fills : Fills pager plan window carried cursor scanned rounds history result)
    (filled : result.1 = .ok page) : page.size = page.items.length := by
  cases fills with
  | rejected _ =>
      cases filled
  | swept _ =>
      cases filled
      exact cut_size ..

/-- Whatever the store answers, a page tells the number of its items. -/
theorem fetch_size (fetched : (pager.fetch plan window history).1 = .ok page) :
    page.size = page.items.length := by
  have fetches := fetch_fetches pager plan window history
  generalize pager.fetch plan window history = result at fetched fetches
  cases fetches with
  | search _ =>
      cases fetched
  | direct _ _ fills =>
      exact fills.size_eq fetched
  | rejected _ _ _ =>
      cases fetched
  | short _ _ _ _ =>
      cases fetched
      rfl
  | complete _ _ _ _ _ =>
      cases fetched
      exact cut_size ..
  | late _ _ _ _ _ _ =>
      cases fetched
      exact cut_size ..
  | further _ _ _ _ _ _ fills =>
      exact fills.size_eq fetched

theorem cut_items (window : PageWindow) (items : List Item) (cursor : Option Cursor)
    (keyFields : List String) (scanned rounds : Nat) :
    (cut (items.drop window.skip) window.limit cursor keyFields scanned rounds).items =
      window.shown items := by
  unfold cut PageWindow.shown
  by_cases limited : window.limit = 0
  · simp [limited]
  · by_cases tooMany : window.limit < (items.drop window.skip).length
    · rw [if_pos ⟨by omega, tooMany⟩, if_neg limited]
    · rw [if_neg fun both => tooMany both.2, if_neg limited, List.take_of_length_le (by omega)]

/-- The page was cut from items gathered from the start of the window on. -/
def CutFrom (plan : StorePlan) (rows : Listing) (window : PageWindow) (page : Page) : Prop :=
  ∃ items cursor scanned rounds, window.skip ≤ items.length ∧
    rows.Gathered window.start items cursor ∧
    page = cut (items.drop window.skip) window.limit cursor plan.keyFields scanned rounds

theorem Fills.cutFrom (serves : pager.Serves plan rows) (distinct : rows.Distinct)
    {items : List Item} {cursor : Option Cursor} {scanned rounds : Nat}
    (reached : rows.Reached window.start items cursor) (skipped : window.skip ≤ items.length)
    {result : Logged (Except StoreFailure Page)}
    (fills : Fills pager plan window (items.drop window.skip) cursor scanned rounds history
      result)
    (filled : result.1 = .ok page) :
    CutFrom plan rows window page := by
  cases fills with
  | rejected _ =>
      cases filled
  | @swept final _ sweeps =>
      cases filled
      have gathered := sweeps.gathered serves distinct (.refl reached.1) rfl
      refine ⟨items ++ final.items, final.cursor, scanned + final.scanned,
        rounds + final.rounds, ?_, reached.gathered_further gathered, ?_⟩
      · rw [List.length_append]
        omega
      · rw [List.drop_append_of_le_length skipped]

/-- A page is empty, because less was gathered than is to be skipped, or was cut from what was
gathered. -/
theorem fetch_ok (serves : pager.Serves plan rows) (distinct : rows.Distinct)
    (known : rows.Knows window.start)
    (fetched : (pager.fetch plan window history).1 = .ok page) :
    (page.items = [] ∧ page.next = none) ∨ CutFrom plan rows window page := by
  have fetches := fetch_fetches pager plan window history
  generalize pager.fetch plan window history = result at fetched fetches
  have gathered : ∀ {skipped logged}, Skips pager plan window history (.ok skipped, logged) →
      rows.Gathered window.start skipped.items skipped.cursor :=
    fun swept => swept.gathered serves distinct (.refl known) rfl
  cases fetches with
  | search _ =>
      cases fetched
  | direct _ noSkip fills =>
      right
      have fillsNoSkip : Fills pager plan window (([] : List Item).drop window.skip)
          window.start 0 0 history result := by
        simpa using fills
      exact fillsNoSkip.cutFrom serves distinct (.refl known) (by simp [noSkip]) fetched
  | rejected _ _ _ =>
      cases fetched
  | short _ _ _ _ =>
      cases fetched
      exact .inl ⟨rfl, rfl⟩
  | complete _ _ swept reaches _ =>
      cases fetched
      exact .inr ⟨_, _, _, _, reaches, gathered swept, rfl⟩
  | late _ _ swept reaches _ _ =>
      cases fetched
      exact .inr ⟨_, none, _, _, reaches, ⟨(gathered swept).1, by simp⟩, rfl⟩
  | @further skipped _ _ _ _ swept reaches incomplete _ fills =>
      right
      obtain ⟨next, found⟩ := Option.ne_none_iff_exists'.mp fun none => incomplete (.inl none)
      have reached := (gathered swept).2 next found
      rw [← found] at reached
      exact fills.cutFrom serves distinct reached reaches fetched

theorem Fills.complete (serves : pager.Serves plan rows) (distinct : rows.Distinct)
    (notSearch : plan.method ≠ .search) (enough : rows.length < pager.settings.maxRounds)
    {items : List Item} {cursor : Option Cursor} {scanned rounds : Nat}
    (reached : rows.Reached window.start items cursor) (skipped : window.skip ≤ items.length)
    {result : Logged (Except StoreFailure Page)}
    (fills : Fills pager plan window (items.drop window.skip) cursor scanned rounds history
      result)
    (undisturbed : pager.Undisturbed (budget pager.settings window.start) history result.2) :
    ∃ page, result.1 = .ok page ∧
      page.items = window.shown (rows.after window.start).matching := by
  cases fills with
  | rejected sweeps =>
      obtain ⟨final, ended, _⟩ :=
        sweeps.finished_of_start serves distinct notSearch reached.1 undisturbed enough
      cases ended
  | @swept final _ sweeps =>
      obtain ⟨_, ended, finished⟩ :=
        sweeps.finished_of_start serves distinct notSearch reached.1 undisturbed enough
      cases ended
      refine ⟨_, rfl, ?_⟩
      rw [← List.drop_append_of_le_length skipped, cut_items, reached.matching_eq]
      rcases finished with ⟨_, everything⟩ | ⟨⟨positive, filled⟩, _, further⟩
      · rw [everything]
      · have limited : window.limit ≠ 0 := by
          intro unlimited
          simp [pageTarget, unlimited] at positive
        rw [pageTarget, if_neg limited, List.length_drop] at filled
        have full : window.skip + window.limit ≤ (items ++ final.items).length := by
          rw [List.length_append]
          omega
        rw [further.matching_eq, ← List.append_assoc,
          window.shown_append (Nat.pos_of_ne_zero limited) full]

/-- A page that is complete after skipping has what the window shows. -/
theorem complete_items {skipped : Sweep}
    (finished : Finished rows window.start window.skip skipped)
    (complete : Complete window skipped) :
    window.shown skipped.items = window.shown (rows.after window.start).matching := by
  rcases finished with ⟨_, everything⟩ | ⟨⟨_, reaches⟩, live, reached⟩
  · rw [everything]
  · rcases complete with atEnd | ⟨limited, full⟩
    · exact absurd atEnd live
    · rw [List.length_drop] at full
      rw [reached.matching_eq, window.shown_append limited (by omega)]

/-- Without a failure and with enough time and rounds a page has all the items that the window
shows. -/
theorem fetch_complete (serves : pager.Serves plan rows) (distinct : rows.Distinct)
    (known : rows.Knows window.start) (notSearch : plan.method ≠ .search)
    (enough : rows.length < pager.settings.maxRounds)
    (undisturbed : pager.Undisturbed (budget pager.settings window.start) history
      (pager.fetch plan window history).2) :
    ∃ page, (pager.fetch plan window history).1 = .ok page ∧
      page.items = window.shown (rows.after window.start).matching := by
  have fetches := fetch_fetches pager plan window history
  generalize pager.fetch plan window history = result at undisturbed fetches ⊢
  have finished : ∀ {ended logged}, Skips pager plan window history (ended, logged) →
      logged <+: result.2 →
      ∃ skipped, ended = .ok skipped ∧ Finished rows window.start window.skip skipped := by
    intro ended logged swept earlier
    exact swept.finished_of_start serves distinct notSearch known
      (undisturbed.mono List.prefix_rfl earlier) enough
  cases fetches with
  | search search =>
      exact absurd search notSearch
  | direct _ noSkip fills =>
      have fillsNoSkip : Fills pager plan window (([] : List Item).drop window.skip)
          window.start 0 0 history result := by
        simpa using fills
      exact fillsNoSkip.complete serves distinct notSearch enough (.refl known)
        (by simp [noSkip]) undisturbed
  | rejected _ _ swept =>
      obtain ⟨_, ended, _⟩ := finished swept List.prefix_rfl
      cases ended
  | short _ _ swept few =>
      obtain ⟨_, ended, outcome⟩ := finished swept List.prefix_rfl
      cases ended
      refine ⟨_, rfl, ?_⟩
      rcases outcome with ⟨_, everything⟩ | ⟨⟨_, reaches⟩, _, _⟩
      · rw [everything] at few
        simp [PageWindow.shown, List.drop_eq_nil_of_le (Nat.le_of_lt few)]
      · omega
  | complete _ _ swept _ complete =>
      obtain ⟨_, ended, outcome⟩ := finished swept List.prefix_rfl
      cases ended
      refine ⟨_, rfl, ?_⟩
      rw [cut_items, complete_items outcome complete]
  | late _ _ swept _ _ spent =>
      have inTime := undisturbed.inTime _ swept.extends_history List.prefix_rfl
      exact absurd spent (Nat.not_le.mpr inTime)
  | further _ _ swept reaches incomplete _ fills =>
      obtain ⟨_, ended, outcome⟩ := finished swept fills.extends_history
      cases ended
      rcases outcome with ⟨atEnd, _⟩ | ⟨_, _, reached⟩
      · exact absurd (.inl atEnd) incomplete
      · have later := undisturbed.mono swept.extends_history List.prefix_rfl
        exact fills.complete serves distinct notSearch enough reached reaches later

/-- What a window shows does not depend on how the store pages. Every page is a first part of
it, within the limit; and a page that was fetched without a failure, in time and with enough
rounds is all of it. -/
theorem fetch_window (serves : pager.Serves plan rows) (distinct : rows.Distinct)
    (known : rows.Knows window.start) (history : History) :
    (∀ page, (pager.fetch plan window history).1 = .ok page →
      page.items <+: (rows.after window.start).matching.drop window.skip ∧
        page.size = page.items.length ∧
        (0 < window.limit → page.size ≤ window.limit)) ∧
      (plan.method ≠ .search →
        rows.length < pager.settings.maxRounds →
        pager.Undisturbed (budget pager.settings window.start) history
          (pager.fetch plan window history).2 →
        ∃ page, (pager.fetch plan window history).1 = .ok page ∧
          page.items = window.shown (rows.after window.start).matching) := by
  refine ⟨?_, ?_⟩
  · intro page fetched
    have counted := fetch_size fetched
    rw [counted]
    rcases fetch_ok serves distinct known fetched with ⟨empty, _⟩ | cutFrom
    · simp [empty]
    · obtain ⟨items, cursor, scanned, rounds, _, gathered, rfl⟩ := cutFrom
      rw [cut_items]
      refine ⟨window.shown_prefix gathered.1, rfl, ?_⟩
      intro limited
      exact window.length_shown_le limited items
  · intro notSearch enough undisturbed
    exact fetch_complete serves distinct known notSearch enough undisturbed

def sampleRow (number : String) (passes : Bool) : StoredRow where
  key := ⟨[("id", .number number)], by simp⟩
  item := [("id", .number number), ("open", .bool passes)]
  passes := passes

/-- Five rows, of which the second one does not match. -/
def sampleRows : Listing :=
  [sampleRow "1" true, sampleRow "2" false, sampleRow "3" true, sampleRow "4" true,
    sampleRow "5" true]

/-- A pager over these rows, of which one and three are examined by turns. -/
def samplePager : Pager where
  store := sampleRows.store fun history => history.length % 2 * 2
  clock _ := 0
  settings := PagingSettings.default

/-- A scan of the rows that are open. -/
def samplePlan : StorePlan where
  method := .fullScan
  statement :=
    { table := "orders"
      index := none
      filter := some "#open = :lit1"
      projection := none
      names := [("#open", "open")]
      values := [(":lit1", .bool true)]
      limit := none
      consistentRead := none
      keyCondition := none
      forward := none }
  keyFields := ["id"]

theorem fetch_window_sample :
    ∃ page, (samplePager.fetch samplePlan ⟨2, 1, none, .strict⟩ []).1 = .ok page ∧
      page.items = [(sampleRow "3" true).item, (sampleRow "4" true).item] := by
  have undisturbed : samplePager.Undisturbed 20000 []
      (samplePager.fetch samplePlan ⟨2, 1, none, .strict⟩ []).2 :=
    { answered := fun _ request _ _ => by cases request <;> rfl
      inTime := fun _ _ _ => Nat.zero_lt_succ _ }
  exact (fetch_window (serves_store _ _ _ _ _) (by decide) Listing.knows_none []).2
    (by decide) (by decide) undisturbed

end Pager

end DocQuery
