import DocQuery.Proofs.Condition.Formula
import DocQuery.Proofs.Text
import DocQuery.Store.Check

/-!
# What the text of an expression mentions

Blanks, parentheses and commas separate the words of an expression. A word with a `#` in it is a
path, whose parts between points are aliases, and a word with a `:` in it is a placeholder. What
a text mentions that was put together is what its parts mention, in their order.
-/

namespace DocQuery.Expression

def isSeparator (c : Char) : Bool :=
  c == ' ' || c == '(' || c == ')' || c == ','

/-- The words of a text that contain a mark. -/
def marked (mark : Char) (text : String) : List String :=
  ((text.toList.splitOnP isSeparator).filter (·.contains mark)).map String.ofList

def paths (text : String) : List String :=
  marked '#' text

def aliases (text : String) : List String :=
  (paths text).flatMap (Text.split '.')

def placeholders (text : String) : List String :=
  marked ':' text

/-- The path with every alias replaced by what it stands for. -/
def resolve? (names : Dictionary String) (path : String) : Option String := do
  let segments ← (Text.split '.' path).mapM names.get?
  return String.intercalate "." segments

section Words

variable {mark : Char}

theorem subset_of_mem_splitOnP {text word : List Char}
    (member : word ∈ text.splitOnP isSeparator) : word ⊆ text := by
  induction text generalizing word with
  | nil =>
      simp only [List.splitOnP_nil, List.mem_singleton] at member
      rw [member]
      exact List.Subset.refl []
  | cons c rest inductionHypothesis =>
      rw [List.splitOnP_cons_eq_if_modifyHead] at member
      split at member
      · rcases List.mem_cons.mp member with rfl | later
        · exact List.nil_subset _
        · exact List.subset_cons_of_subset c (inductionHypothesis later)
      · cases cut : rest.splitOnP isSeparator with
        | nil =>
            exact absurd cut (List.splitOnP_ne_nil isSeparator rest)
        | cons first others =>
            rw [cut] at inductionHypothesis member
            rcases List.mem_cons.mp member with rfl | later
            · exact List.cons_subset_cons c (inductionHypothesis List.mem_cons_self)
            · exact List.subset_cons_of_subset c
                (inductionHypothesis (List.mem_cons_of_mem first later))

/-- A text without the mark mentions nothing. -/
theorem marked_eq_nil {text : String} (unmarked : mark ∉ text.toList) : marked mark text = [] := by
  rw [marked, List.map_eq_nil_iff, List.filter_eq_nil_iff]
  intro word member
  rw [List.contains_eq_mem, decide_eq_true_eq]
  exact fun inside => unmarked (subset_of_mem_splitOnP member inside)

/-- A word with the mark mentions itself. -/
theorem marked_word {word : String} (whole : ∀ c ∈ word.toList, isSeparator c = false)
    (isMarked : mark ∈ word.toList) : marked mark word = [word] := by
  rw [marked, List.splitOnP_eq_singleton whole]
  simp [isMarked]

theorem marked_separator (first second : String) {text : String} {c : Char}
    (separates : isSeparator c = true)
    (spelled : text.toList = first.toList ++ c :: second.toList) :
    marked mark text = marked mark first ++ marked mark second := by
  rw [marked, spelled, List.splitOnP_append_cons _ _ separates, List.filter_append,
    List.map_append]
  rfl

/-- The text mentions nothing and its last word ends before its end. -/
def isLead (text : String) : Bool :=
  text.toList.all (fun c => c != '#' && c != ':') && text.toList.getLast?.any isSeparator

/-- The text stands between two others without being part of their words. -/
def isGap (text : String) : Bool :=
  isLead text && text.toList.head?.any isSeparator

variable (isMark : mark = '#' ∨ mark = ':')
include isMark

theorem not_mem_of_unmarked {text : List Char}
    (unmarked : text.all (fun c => c != '#' && c != ':') = true) : mark ∉ text := by
  intro member
  have noMark := List.all_eq_true.mp unmarked mark member
  rcases isMark with rfl | rfl <;> cases noMark

theorem marked_lead {lead : String} (leads : isLead lead = true) (text : String) :
    marked mark (lead ++ text) = marked mark text := by
  obtain ⟨unmarked, ends⟩ := Bool.and_eq_true_iff.mp leads
  obtain ⟨c, isLast, separates⟩ := (Option.any_eq_true _ _).mp ends
  obtain ⟨word, spelled⟩ := List.getLast?_eq_some_iff.mp isLast
  have nothing : mark ∉ word := by
    have absent := not_mem_of_unmarked isMark unmarked
    rw [spelled] at absent
    exact fun inside => absent (List.mem_append_left [c] inside)
  have wordUnmarked : marked mark (String.ofList word) = [] :=
    marked_eq_nil (by rwa [String.toList_ofList])
  rw [marked_separator (String.ofList word) text separates (by simp [spelled]),
    wordUnmarked, List.nil_append]

theorem marked_gap {gap : String} (separates : isGap gap = true) (first second : String) :
    marked mark (first ++ gap ++ second) = marked mark first ++ marked mark second := by
  obtain ⟨leads, begins⟩ := Bool.and_eq_true_iff.mp separates
  obtain ⟨c, isFirst, begins⟩ := (Option.any_eq_true _ _).mp begins
  obtain ⟨rest, spelled⟩ := List.head?_eq_some_iff.mp isFirst
  have behind : marked mark (String.ofList rest ++ second) = marked mark second := by
    have whole := marked_lead isMark leads second
    rwa [marked_separator "" (String.ofList rest ++ second) begins (by simp [spelled])] at whole
  rw [marked_separator first (String.ofList rest ++ second) begins (by simp [spelled]), behind]

theorem marked_trail {trail : String} (trails : isGap trail = true) (text : String) :
    marked mark (text ++ trail) = marked mark text := by
  have nothing : marked mark "" = [] := marked_eq_nil (by simp)
  have whole := marked_gap isMark trails text ""
  rwa [String.append_empty, nothing, List.append_nil] at whole

theorem marked_intercalate {gap : String} (separates : isGap gap = true) (texts : List String) :
    marked mark (String.intercalate gap texts) = texts.flatMap (marked mark) := by
  induction texts with
  | nil =>
      exact marked_eq_nil (by simp)
  | cons first rest inductionHypothesis =>
      cases rest with
      | nil =>
          simp
      | cons second others =>
          rw [String.intercalate_cons_cons, marked_gap isMark separates, inductionHypothesis]
          rfl

end Words

end DocQuery.Expression

namespace DocQuery

open Expression

/-- The operands of a check, in the order of its text. -/
def Check.operands {β : Type} : Check β → List β
  | .compare _ operand | .beginsWith operand | .contains operand => [operand]
  | .within operands | .notWithin operands => operands
  | .present | .absent => []

section Texts

variable {mark : Char} (isMark : mark = '#' ∨ mark = ':')
include isMark

namespace StoreClause

theorem marked_membership (path : String) (placeholders : List String) :
    marked mark (membership path placeholders) =
      marked mark path ++ placeholders.flatMap (marked mark) := by
  rw [membership, marked_trail isMark (by decide), marked_gap isMark (by decide),
    marked_intercalate isMark (by decide)]

theorem marked_call {function : String} (called : isLead (function ++ "(") = true)
    (path placeholder : String) :
    marked mark (call function path placeholder) =
      marked mark path ++ marked mark placeholder := by
  rw [call, marked_trail isMark (by decide), marked_gap isMark (by decide),
    marked_lead isMark called]

/-- A clause mentions its path, then its operands. -/
theorem marked_text (clause : StoreClause) :
    marked mark clause.text =
      marked mark clause.path ++ clause.check.operands.flatMap (marked mark) := by
  obtain ⟨path, check⟩ := clause
  cases check with
  | compare comparator placeholder =>
      have separates : isGap (" " ++ comparator.storeText ++ " ") = true := by
        cases comparator <;> decide
      have gapped := marked_gap isMark separates path placeholder
      simpa [text, Check.operands, String.append_assoc] using gapped
  | within placeholders =>
      exact marked_membership isMark path placeholders
  | notWithin placeholders =>
      rw [text, marked_trail isMark (by decide), marked_lead isMark (by decide)]
      exact marked_membership isMark path placeholders
  | beginsWith placeholder =>
      rw [text, marked_call isMark (by decide)]
      simp [Check.operands]
  | contains placeholder =>
      rw [text, marked_call isMark (by decide)]
      simp [Check.operands]
  | present | absent =>
      rw [text, marked_trail isMark (by decide), marked_lead isMark (by decide)]
      simp [Check.operands]

end StoreClause

namespace StoreExpression

theorem marked_parenthesized (text : String) :
    marked mark ("(" ++ text ++ ")") = marked mark text := by
  rw [marked_trail isMark (by decide), marked_lead isMark (by decide)]

/-- A chain mentions what its members mention, however it is parenthesized. -/
theorem marked_chainText (members : Chain String) :
    marked mark (chainText members) = members.items.flatMap (marked mark) := by
  have run (texts : List String) (several : Prop) [Decidable several] :
      marked mark (if several then "(" ++ String.intercalate " OR " texts ++ ")"
        else String.intercalate " OR " texts) = texts.flatMap (marked mark) := by
    split
    · rw [marked_parenthesized isMark, marked_intercalate isMark (by decide)]
    · rw [marked_intercalate isMark (by decide)]
  rw [chainText, marked_intercalate isMark (by decide), List.flatMap_map]
  simp only [run]
  rw [← members.flatten_runs, ← List.flatMap_id, List.flatMap_assoc]
  rfl

theorem marked_groupText (members : Chain String) :
    marked mark (groupText members) = members.items.flatMap (marked mark) := by
  rw [groupText]
  split
  · exact marked_chainText isMark members
  · rw [marked_parenthesized isMark, marked_chainText isMark]

theorem marked_node (node : Tree StoreClause) :
    marked mark (node.fold StoreClause.text groupText) =
      node.atoms.flatMap fun clause => marked mark clause.text := by
  induction node using Tree.inductOn with
  | leaf clause =>
      simp
  | group inner inductionHypothesis =>
      rw [Tree.fold_group, marked_groupText isMark, Chain.items_map, Tree.atoms_group,
        List.flatMap_map, List.flatMap_assoc]
      exact List.flatMap_congr inductionHypothesis

theorem marked_text (formula : Formula StoreClause) :
    marked mark (text formula) =
      formula.atoms.flatMap fun clause => marked mark clause.text := by
  rw [text, marked_chainText isMark, Tree.foldChain_eq_map, Chain.items_map,
    Formula.atoms_eq_flatMap_items, List.flatMap_map, List.flatMap_assoc]
  exact List.flatMap_congr fun node _ => marked_node isMark node

/-- Formulas that hold together mention what their clauses mention. -/
theorem marked_conjunction? (formulas : List (Formula StoreClause)) :
    marked mark ((conjunction? formulas).getD "") =
      (formulas.flatMap Formula.atoms).flatMap fun clause => marked mark clause.text := by
  have conjunct (formula : Formula StoreClause) :
      marked mark (if formula.isSingle then text formula else "(" ++ text formula ++ ")") =
        formula.atoms.flatMap fun clause => marked mark clause.text := by
    split
    · exact marked_text isMark formula
    · rw [marked_parenthesized isMark, marked_text isMark]
  cases formulas with
  | nil =>
      exact marked_eq_nil (by simp [conjunction?])
  | cons first others =>
      cases others with
      | nil =>
          simpa [conjunction?] using marked_text isMark first
      | cons second later =>
          simp only [conjunction?, Option.getD_some]
          rw [marked_intercalate isMark (by decide), List.flatMap_map, List.flatMap_assoc]
          exact List.flatMap_congr fun formula _ => conjunct formula

end StoreExpression

end Texts

end DocQuery
