import DocQuery.Proofs.Dictionary
import DocQuery.Proofs.Paging.Window
import DocQuery.Proofs.Related

/-!
# Going on where a page ends

The cursor of a page is the key of the last row that was read for it. If the page was cut, that
row is the one of the last item kept, whose key is put together from the attributes of the item.
So each page begins right after the one before, whatever else the store had gathered.
-/

namespace DocQuery

/-- The keys of the rows have these attributes, and what passes the filter carries them. -/
structure Listing.KeyedBy (rows : Listing) (names : List String) : Prop where
  ordered : ∀ row ∈ rows, row.key.key.Ordered
  attributes : ∀ row ∈ rows, ∀ name, name ∈ row.key.key.keys ↔ name ∈ names
  carried : ∀ row ∈ rows, row.passes = true →
    ∀ name ∈ names, row.item.get? name = row.key.key.get? name

/-- The plan leaves the key attributes open, or they are these. -/
def StorePlan.FitsKey (plan : StorePlan) (names : List String) : Prop :=
  plan.keyFields = [] ∨ ∀ name, name ∈ plan.keyFields ↔ name ∈ names

theorem Cursor.attributes?_ok {item : Item} {fields : List String}
    (present : ∀ field ∈ fields, (item.get? field).isSome) :
    ∃ pairs, attributes? item fields = some pairs ∧ pairs.map Prod.fst = fields ∧
      ∀ pair ∈ pairs, item.get? pair.1 = some pair.2 := by
  induction fields with
  | nil =>
      exact ⟨[], rfl, rfl, by simp⟩
  | cons field rest inductionHypothesis =>
      obtain ⟨value, found⟩ := Option.isSome_iff_exists.mp (present field List.mem_cons_self)
      obtain ⟨pairs, others, names, taken⟩ := inductionHypothesis fun other member =>
        present other (List.mem_cons_of_mem _ member)
      refine ⟨(field, value) :: pairs, by simp [attributes?, found, others], by simp [names], ?_⟩
      intro pair member
      rcases List.mem_cons.mp member with rfl | later
      · exact found
      · exact taken pair later

/-- The cursor after an item that carries a key is that key. -/
theorem Cursor.ofItem?_eq {key : Cursor} {item : Item} {fields : List String}
    (ordered : key.key.Ordered)
    (names : ∀ name, name ∈ key.key.keys ↔ name ∈ fields)
    (carried : ∀ name ∈ fields, item.get? name = key.key.get? name) :
    ofItem? item fields = some key := by
  have present : ∀ field ∈ fields, (item.get? field).isSome := by
    intro field member
    rw [carried field member, ← Dictionary.mem_keys_iff]
    exact (names field).mpr member
  obtain ⟨pairs, found, pairNames, taken⟩ := attributes?_ok present
  have whole : Dictionary.ofList pairs = key.key := by
    apply Dictionary.ofList_eq_of_entries ordered
    · intro pair member
      rw [← carried pair.1 (pairNames ▸ List.mem_map_of_mem member)]
      exact taken pair member
    · intro name member
      rw [pairNames]
      exact (names name).mp member
  simp [ofItem?, found, whole, ofKey?_key]

namespace Listing

variable {rows : Listing} {names : List String}

/-- An item among those that match belongs to a row, with the other items on the same sides. -/
theorem exists_row_of_matching {examined : Listing} {front back : List Item} {item : Item}
    (split : examined.matching = front ++ item :: back) :
    ∃ before row behind, examined = before ++ row :: behind ∧ row.passes = true ∧
      row.item = item ∧ matching (before ++ [row]) = front ++ [item] := by
  obtain ⟨first, rest, filtered, rfl, restItems⟩ := List.map_eq_append_iff.mp split
  obtain ⟨row, others, rfl, rfl, _⟩ := List.map_eq_cons_iff.mp restItems
  obtain ⟨before, later, rfl, rfl, laterFiltered⟩ := List.filter_eq_append_iff.mp filtered
  obtain ⟨between, behind, rfl, failing, passes, _⟩ := List.filter_eq_cons_iff.mp laterFiltered
  refine ⟨before ++ between, row, behind, by simp, passes, rfl, ?_⟩
  have noneBetween : between.filter StoredRow.passes = [] := by
    simpa [List.filter_eq_nil_iff] using failing
  simp [matching, noneBetween, passes]

/-- Where an item among those gathered belongs, reading can go on after its row. -/
theorem Reached.exists_row (distinct : rows.Distinct) {start cursor : Option Cursor}
    {front back : List Item} {item : Item}
    (reached : rows.Reached start (front ++ item :: back) cursor) :
    ∃ row ∈ rows, row.passes = true ∧ row.item = item ∧
      rows.Reached start (front ++ [item]) (some row.key) := by
  obtain ⟨_, examined, whole, items⟩ := reached
  obtain ⟨before, row, behind, rfl, passes, rfl, kept⟩ := exists_row_of_matching items.symm
  have place : rows.after start = before ++ row :: (behind ++ rows.after cursor) := by
    simpa using whole
  obtain ⟨known, rest⟩ := after_row distinct place
  have member : row ∈ rows := by
    apply (rows.after_suffix start).subset
    rw [place]
    simp
  refine ⟨row, member, passes, rfl, known, before ++ [row], ?_, kept.symm⟩
  rw [place, rest]
  simp

end Listing

namespace Pager

variable {pager : Pager} {plan : StorePlan} {rows : Listing} {names : List String}
variable {window : PageWindow} {history : History} {page : Page}

theorem resumeAfter_eq (keyed : rows.KeyedBy names) (fits : plan.FitsKey names)
    {row : StoredRow} (member : row ∈ rows) (passes : row.passes = true)
    {past : Cursor} (known : rows.Knows (some past))
    {kept : List Item} (last : kept.getLast? = some row.item) :
    resumeAfter kept past plan.keyFields = row.key := by
  have fields : ∀ name, name ∈ (if plan.keyFields.isEmpty then past.key.keys
      else plan.keyFields) ↔ name ∈ names := by
    intro name
    split
    · obtain ⟨pastRow, pastMember, rfl⟩ := List.mem_map.mp (Listing.knows_some_iff.mp known)
      exact keyed.attributes pastRow pastMember name
    · next chosen =>
        rcases fits with unset | same
        · simp [unset] at chosen
        · exact same name
  have found := Cursor.ofItem?_eq (keyed.ordered row member)
    (fun name => (keyed.attributes row member name).trans (fields name).symm)
    (fun name inFields => keyed.carried row member passes name ((fields name).mp inFields))
  simp only [resumeAfter, last, Option.bind_some, found, Option.getD_some]

theorem CutFrom.reached (distinct : rows.Distinct) (keyed : rows.KeyedBy names)
    (fits : plan.FitsKey names) (cutFrom : CutFrom plan rows window page)
    {next : Cursor} (cursorFound : page.next = some next) :
    ∃ skipped, skipped.length = window.skip ∧
      rows.Reached window.start (skipped ++ page.items) (some next) := by
  obtain ⟨items, cursor, scanned, rounds, enough, gathered, rfl⟩ := cutFrom
  refine ⟨items.take window.skip, List.length_take_of_le enough, ?_⟩
  unfold cut at cursorFound ⊢
  split
  · next tooMany =>
      rw [if_pos tooMany] at cursorFound
      obtain ⟨past, rfl, resumed⟩ := Option.map_eq_some_iff.mp cursorFound
      have someKept : (items.drop window.skip).take window.limit ≠ [] := by
        intro none
        have length := congrArg List.length none
        rw [List.length_take, List.length_nil] at length
        omega
      obtain ⟨front, last, keptSplit⟩ :=
        (List.eq_nil_or_concat' ((items.drop window.skip).take window.limit)).resolve_left someKept
      have split : items = (items.take window.skip ++ front) ++
          last :: (items.drop window.skip).drop window.limit := by
        calc
          items = items.take window.skip ++ ((items.drop window.skip).take window.limit ++
              (items.drop window.skip).drop window.limit) := by
            rw [List.take_append_drop, List.take_append_drop]
          _ = _ := by
            rw [keptSplit]
            simp
      have gatheredTo := gathered.2 past rfl
      rw [split] at gatheredTo
      obtain ⟨row, member, passes, rfl, reached⟩ := gatheredTo.exists_row distinct
      rw [resumeAfter_eq keyed fits member passes (gathered.2 past rfl).1
        (by rw [keptSplit, List.getLast?_concat])] at resumed
      subst resumed
      rw [keptSplit, ← List.append_assoc]
      exact reached
  · next fitting =>
      rw [if_neg fitting] at cursorFound
      simp only [List.take_append_drop]
      exact gathered.2 next cursorFound

/-- A page with a cursor ends right before the rows after it. -/
theorem fetch_reached (serves : pager.Serves plan rows) (distinct : rows.Distinct)
    (keyed : rows.KeyedBy names) (fits : plan.FitsKey names)
    (known : rows.Knows window.start)
    (fetched : (pager.fetch plan window history).1 = .ok page)
    {next : Cursor} (cursorFound : page.next = some next) :
    ∃ skipped, skipped.length = window.skip ∧
      rows.Reached window.start (skipped ++ page.items) (some next) := by
  rcases fetch_ok serves distinct known fetched with ⟨_, atEnd⟩ | cutFrom
  · rw [atEnd] at cursorFound
    cases cursorFound
  · exact cutFrom.reached distinct keyed fits cursorFound

/-- Pages fetched one after the other, each from the cursor of the one before. -/
inductive Turns (pager : Pager) (plan : StorePlan) :
    Option Cursor → List (PageWindow × Page) → Option Cursor → Prop
  | done {cursor : Option Cursor} :
      Turns pager plan cursor [] cursor
  | turn {window : PageWindow} {page : Page} {next : Cursor} {history : History}
      {rest : List (PageWindow × Page)} {final : Option Cursor} :
      (pager.fetch plan window history).1 = .ok page →
      page.next = some next →
      Turns pager plan (some next) rest final →
      Turns pager plan window.start ((window, page) :: rest) final

/-- What a page stands for: as many items as it skips, then its own. -/
def Spans (entry : PageWindow × Page) (items : List Item) : Prop :=
  ∃ skipped, skipped.length = entry.1.skip ∧ items = skipped ++ entry.2.items

theorem Turns.reached (serves : pager.Serves plan rows) (distinct : rows.Distinct)
    (keyed : rows.KeyedBy names) (fits : plan.FitsKey names)
    {start final : Option Cursor} {pages : List (PageWindow × Page)}
    (turns : Turns pager plan start pages final) (known : rows.Knows start) :
    ∃ spans, List.Forall₂ Spans pages spans ∧ rows.Reached start spans.flatten final := by
  induction turns with
  | done =>
      exact ⟨[], .nil, .refl known⟩
  | turn fetched cursorFound _ inductionHypothesis =>
      obtain ⟨skipped, length, reached⟩ :=
        fetch_reached serves distinct keyed fits known fetched cursorFound
      obtain ⟨spans, others, further⟩ := inductionHypothesis reached.1
      exact ⟨_, .cons ⟨skipped, length, rfl⟩ others, reached.trans further⟩

/-- Nothing is lost between pages and nothing is repeated. The items that match after the start
of a page with a cursor are those it skips, its own, and those after the cursor; and over several
pages they are those of one page after the other. -/
theorem fetch_exact (serves : pager.Serves plan rows) (distinct : rows.Distinct)
    (keyed : rows.KeyedBy names) (fits : plan.FitsKey names) :
    (∀ window history page next, rows.Knows window.start →
      (pager.fetch plan window history).1 = .ok page → page.next = some next →
      rows.Knows (some next) ∧ ∃ skipped, skipped.length = window.skip ∧
        (rows.after window.start).matching =
          skipped ++ page.items ++ (rows.after (some next)).matching) ∧
      ∀ start pages final, rows.Knows start → Turns pager plan start pages final →
        ∃ spans, List.Forall₂ Spans pages spans ∧
          (rows.after start).matching = spans.flatten ++ (rows.after final).matching := by
  refine ⟨?_, ?_⟩
  · intro window history page next known fetched cursorFound
    obtain ⟨skipped, length, reached⟩ :=
      fetch_reached serves distinct keyed fits known fetched cursorFound
    exact ⟨reached.1, skipped, length, reached.matching_eq⟩
  · intro start pages final known turns
    obtain ⟨spans, spanned, reached⟩ := turns.reached serves distinct keyed fits known
    exact ⟨spans, spanned, reached.matching_eq⟩

theorem sampleRows_keyedBy : sampleRows.KeyedBy ["id"] where
  ordered := by
    intro row member
    simp only [sampleRows, List.mem_cons, List.not_mem_nil, or_false] at member
    rcases member with rfl | rfl | rfl | rfl | rfl <;>
      simp [sampleRow, Dictionary.Ordered, Dictionary.keys]
  attributes := by
    intro row member name
    simp only [sampleRows, List.mem_cons, List.not_mem_nil, or_false] at member
    rcases member with rfl | rfl | rfl | rfl | rfl <;>
      simp [sampleRow, Dictionary.keys]
  carried := by
    intro row member _ name named
    simp only [sampleRows, List.mem_cons, List.not_mem_nil, or_false] at member named
    subst named
    rcases member with rfl | rfl | rfl | rfl | rfl <;> rfl

/-- One row is examined to skip the first result, then three more are; the page is cut after the
second of them, which is the first one that matches. -/
theorem fetch_exact_sample :
    ∃ page, (samplePager.fetch samplePlan ⟨1, 1, none, .strict⟩ []).1 = .ok page ∧
      page.next = some (sampleRow "3" true).key ∧
      ∃ skipped, skipped.length = 1 ∧
        sampleRows.matching = skipped ++ page.items ++
          [(sampleRow "4" true).item, (sampleRow "5" true).item] := by
  have exact := fetch_exact (serves_store sampleRows (fun history => history.length % 2 * 2)
    (fun _ => 0) PagingSettings.default samplePlan) (by decide) sampleRows_keyedBy
    (.inr fun _ => Iff.rfl)
  have fetched : (samplePager.fetch samplePlan ⟨1, 1, none, .strict⟩ []).1 =
      .ok ⟨[(sampleRow "3" true).item], 1, some (sampleRow "3" true).key, 4, 2⟩ := by
    rfl
  exact ⟨_, fetched, rfl, (exact.1 _ _ _ _ Listing.knows_none fetched rfl).2⟩

end Pager

end DocQuery
