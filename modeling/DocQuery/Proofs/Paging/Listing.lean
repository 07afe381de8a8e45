import DocQuery.Paging.Pager
import Mathlib.Data.List.Nodup

/-!
# Stores that list rows

A store lists rows in a fixed order, each under a key of its own. A call examines some of the
rows after a key, as many as the store likes but at least one if there are any, and answers with
those that pass the filter; while rows remain it tells the key of the last one examined.
-/

namespace DocQuery

/-- A row that a store examines: its key, what is returned of it, and whether it passes the
filter. -/
structure StoredRow where
  key : Cursor
  item : Item
  passes : Bool
deriving DecidableEq

/-- The rows of a store in order. -/
abbrev Listing := List StoredRow

namespace Listing

/-- The items of the rows that pass the filter. -/
def matching (rows : Listing) : List Item :=
  (rows.filter StoredRow.passes).map StoredRow.item

/-- The rows after the one with this key. -/
def afterKey (key : Cursor) : Listing → Listing
  | [] => []
  | row :: rest => if row.key = key then rest else afterKey key rest

/-- The rows after a cursor: all of them if there is none. -/
def after (rows : Listing) : Option Cursor → Listing
  | none => rows
  | some key => rows.afterKey key

/-- No two rows have the same key. -/
def Distinct (rows : Listing) : Prop :=
  (rows.map StoredRow.key).Nodup

instance (rows : Listing) : Decidable rows.Distinct :=
  inferInstanceAs (Decidable (rows.map StoredRow.key).Nodup)

/-- The beginning, or the key of a row. -/
def Knows (rows : Listing) (cursor : Option Cursor) : Prop :=
  ∀ key, cursor = some key → key ∈ rows.map StoredRow.key

/-- An answer about the rows after a cursor, of which some were examined and others are left. -/
def Answers (rows : Listing) (cursor : Option Cursor) (output : Output) : Prop :=
  ∃ examined left : Listing, rows.after cursor = examined ++ left ∧
    (examined = [] → left = []) ∧
    output.items = examined.matching ∧
    output.lastKey = Cursor.keyOrEmpty
      (if left = [] then none else examined.getLast?.map StoredRow.key)

variable {rows : Listing}

@[simp]
theorem matching_append (first second : Listing) :
    matching (first ++ second) = first.matching ++ second.matching := by
  simp [matching]

theorem knows_none : rows.Knows none := by
  intro key absent
  cases absent

theorem knows_some_iff {key : Cursor} :
    rows.Knows (some key) ↔ key ∈ rows.map StoredRow.key := by
  simp [Knows]

theorem afterKey_suffix (key : Cursor) : rows.afterKey key <:+ rows := by
  induction rows with
  | nil =>
      exact List.suffix_rfl
  | cons row rest inductionHypothesis =>
      unfold afterKey
      split
      · exact List.suffix_cons row rest
      · exact inductionHypothesis.trans (List.suffix_cons row rest)

theorem after_suffix (cursor : Option Cursor) : rows.after cursor <:+ rows := by
  cases cursor with
  | none =>
      exact List.suffix_rfl
  | some key =>
      exact afterKey_suffix key

theorem afterKey_eq (distinct : rows.Distinct) {before behind : Listing} {row : StoredRow}
    (place : rows = before ++ row :: behind) : rows.afterKey row.key = behind := by
  induction before generalizing rows with
  | nil =>
      subst place
      simp [afterKey]
  | cons first rest inductionHypothesis =>
      subst place
      rw [List.cons_append, Distinct, List.map_cons, List.nodup_cons] at distinct
      have different : ¬ first.key = row.key := by
        intro same
        exact distinct.1 (by simp [same])
      rw [List.cons_append, afterKey, if_neg different]
      exact inductionHypothesis distinct.2 rfl

theorem after_row (distinct : rows.Distinct) {cursor : Option Cursor}
    {before behind : Listing} {row : StoredRow}
    (place : rows.after cursor = before ++ row :: behind) :
    rows.Knows (some row.key) ∧ rows.after (some row.key) = behind := by
  obtain ⟨front, whole⟩ := rows.after_suffix cursor
  rw [place, ← List.append_assoc] at whole
  refine ⟨knows_some_iff.mpr ?_, afterKey_eq distinct whole.symm⟩
  rw [← whole]
  simp

/-- Rows were gathered from a cursor on to another one. -/
def Reached (rows : Listing) (start : Option Cursor) (items : List Item)
    (cursor : Option Cursor) : Prop :=
  rows.Knows cursor ∧ ∃ examined, rows.after start = examined ++ rows.after cursor ∧
    items = examined.matching

namespace Reached

variable {start middle cursor : Option Cursor} {items further : List Item}

theorem refl (known : rows.Knows start) : rows.Reached start [] start :=
  ⟨known, [], rfl, rfl⟩

theorem trans (first : rows.Reached start items middle)
    (second : rows.Reached middle further cursor) :
    rows.Reached start (items ++ further) cursor := by
  obtain ⟨_, examined, split, rfl⟩ := first
  obtain ⟨known, others, restSplit, rfl⟩ := second
  refine ⟨known, examined ++ others, ?_, by simp⟩
  rw [split, restSplit, List.append_assoc]

theorem matching_eq (reached : rows.Reached start items cursor) :
    (rows.after start).matching = items ++ (rows.after cursor).matching := by
  obtain ⟨_, examined, split, rfl⟩ := reached
  rw [split, matching_append]

end Reached

/-- After an answer reading is either at its end or has got further. -/
theorem Answers.reached (distinct : rows.Distinct) {cursor : Option Cursor} {output : Output}
    (answers : rows.Answers cursor output) :
    (Cursor.ofKey? output.lastKey = none ∧ output.items = (rows.after cursor).matching) ∨
      ∃ next, Cursor.ofKey? output.lastKey = some next ∧
        rows.Reached cursor output.items (some next) ∧
        (rows.after (some next)).length < (rows.after cursor).length := by
  obtain ⟨examined, left, split, progress, items, lastKey⟩ := answers
  by_cases nothingLeft : left = []
  · left
    rw [if_pos nothingLeft] at lastKey
    rw [nothingLeft, List.append_nil] at split
    rw [lastKey, split]
    exact ⟨rfl, items⟩
  · right
    have someExamined : examined ≠ [] := fun none => nothingLeft (progress none)
    obtain ⟨before, last, rfl⟩ := List.eq_nil_or_concat examined |>.resolve_left someExamined
    rw [List.concat_eq_append] at split items lastKey
    rw [if_neg nothingLeft, List.getLast?_concat, Option.map_some] at lastKey
    have place : rows.after cursor = before ++ last :: left := by simpa using split
    obtain ⟨known, rest⟩ := after_row distinct place
    refine ⟨last.key, ?_, ⟨known, before ++ [last], ?_, items⟩, ?_⟩
    · rw [lastKey]
      exact Cursor.ofKey?_key last.key
    · rw [rest, split]
    · rw [rest, place]
      simp
      omega

/-- The answer after a key for which one row is examined and `more` others, if there are so
many. -/
def answer (rows : Listing) (more : Nat) (startKey : Item) : Output :=
  let ahead := rows.after (Cursor.ofKey? startKey)
  let examined : Listing := ahead.take (more + 1)
  { items := examined.matching
    count := examined.matching.length
    scannedCount := examined.length
    lastKey := Cursor.keyOrEmpty
      (if ahead.drop (more + 1) = [] then none else examined.getLast?.map StoredRow.key) }

/-- A store that never fails and decides by the calls before how many rows it examines. -/
def store (rows : Listing) (more : History → Nat) : Store where
  describe _ _ := .ok ⟨none, [], [], [], [], none⟩
  query history request := .ok (rows.answer (more history) request.startKey)
  scan history request := .ok (rows.answer (more history) request.startKey)

theorem answers_answer (rows : Listing) (more : Nat) (cursor : Option Cursor) :
    rows.Answers cursor (rows.answer more (Cursor.keyOrEmpty cursor)) := by
  have same : Cursor.ofKey? (Cursor.keyOrEmpty cursor) = cursor := by
    cases cursor with
    | none =>
        rfl
    | some key =>
        exact key.ofKey?_key
  refine ⟨(rows.after cursor).take (more + 1), (rows.after cursor).drop (more + 1),
    (List.take_append_drop _ _).symm, ?_, ?_, ?_⟩
  · intro nothingExamined
    have nothing : rows.after cursor = [] := by simpa using nothingExamined
    simp [nothing]
  · simp [answer, same]
  · simp only [answer, same]

end Listing

end DocQuery
