import DocQuery.Proofs.Acceptance
import DocQuery.Proofs.Store.Tables

/-!
# The clauses of a statement

Every predicate of a condition has a clause in the statement that the condition is compiled to.
The text of the clause stands in the key condition or in the filter, its path names the field of
the predicate, and its placeholders stand for the operands of the test that the predicate was
lowered to.
-/

namespace DocQuery

open Names (NamesTest)

/-- The text stands somewhere in the other one. -/
def StandsIn (part whole : String) : Prop :=
  part.toList <:+: whole.toList

namespace StandsIn

theorem refl (text : String) : StandsIn text text :=
  List.infix_refl text.toList

theorem trans {first second third : String} (left : StandsIn first second)
    (right : StandsIn second third) : StandsIn first third :=
  List.IsInfix.trans left right

theorem between (before text behind : String) : StandsIn text (before ++ text ++ behind) := by
  refine ⟨before.toList, behind.toList, ?_⟩
  rw [String.toList_append, String.toList_append]

theorem intercalate {separator text : String} {texts : List String} (member : text ∈ texts) :
    StandsIn text (String.intercalate separator texts) := by
  induction texts with
  | nil =>
      cases member
  | cons first rest inductionHypothesis =>
      cases rest with
      | nil =>
          have same : text = first := List.mem_singleton.mp member
          rw [same, String.intercalate_singleton]
          exact refl first
      | cons second others =>
          rw [String.intercalate_cons_cons]
          rcases List.mem_cons.mp member with same | later
          · rw [same, String.append_assoc]
            have front := between "" first
              (separator ++ String.intercalate separator (second :: others))
            rwa [String.empty_append] at front
          · have behind := between (first ++ separator)
              (String.intercalate separator (second :: others)) ""
            rw [String.append_empty] at behind
            exact (inductionHypothesis later).trans behind

end StandsIn

namespace StoreExpression

theorem standsIn_chainText {members : Chain String} {text : String}
    (member : text ∈ members.items) : StandsIn text (chainText members) := by
  rw [← members.flatten_runs] at member
  obtain ⟨run, isRun, inRun⟩ := List.mem_flatten.mp member
  have inAlternatives : StandsIn text (String.intercalate " OR " run) := StandsIn.intercalate inRun
  refine StandsIn.trans ?_ (StandsIn.intercalate (List.mem_map_of_mem isRun))
  dsimp only
  split
  · exact inAlternatives.trans (StandsIn.between "(" _ ")")
  · exact inAlternatives

theorem standsIn_groupText {members : Chain String} {text : String}
    (member : text ∈ members.items) : StandsIn text (groupText members) := by
  have inChain := standsIn_chainText member
  rw [groupText]
  split
  · exact inChain
  · exact inChain.trans (StandsIn.between "(" _ ")")

theorem standsIn_node {node : Tree StoreClause} {clause : StoreClause}
    (member : clause ∈ node.atoms) :
    StandsIn clause.text (node.fold StoreClause.text groupText) := by
  induction node using Tree.inductOn with
  | leaf atom =>
      have same : clause = atom := by
        simpa using member
      rw [same, Tree.fold_leaf]
      exact StandsIn.refl atom.text
  | group inner inductionHypothesis =>
      rw [Tree.atoms_group] at member
      obtain ⟨node, isNode, inNode⟩ := List.mem_flatMap.mp member
      rw [Tree.fold_group]
      apply (inductionHypothesis node isNode inNode).trans
      apply standsIn_groupText
      rw [Chain.items_map]
      exact List.mem_map_of_mem isNode

theorem standsIn_text {formula : Formula StoreClause} {clause : StoreClause}
    (member : clause ∈ formula.atoms) : StandsIn clause.text (text formula) := by
  rw [Formula.atoms_eq_flatMap_items] at member
  obtain ⟨node, isNode, inNode⟩ := List.mem_flatMap.mp member
  apply (standsIn_node inNode).trans
  apply standsIn_chainText
  rw [Tree.foldChain_eq_map, Chain.items_map]
  exact List.mem_map_of_mem isNode

theorem exists_conjunction? {formulas : List (Formula StoreClause)} {clause : StoreClause}
    (member : clause ∈ formulas.flatMap Formula.atoms) :
    ∃ whole, conjunction? formulas = some whole ∧ StandsIn clause.text whole := by
  obtain ⟨formula, isFormula, inFormula⟩ := List.mem_flatMap.mp member
  have inText := standsIn_text inFormula
  match formulas, isFormula with
  | [single], isFormula =>
      have same : formula = single := List.mem_singleton.mp isFormula
      exact ⟨text single, rfl, same ▸ inText⟩
  | first :: second :: others, isFormula =>
      refine ⟨_, rfl, StandsIn.trans ?_ (StandsIn.intercalate (List.mem_map_of_mem isFormula))⟩
      split
      · exact inText
      · exact inText.trans (StandsIn.between "(" _ ")")

end StoreExpression

/-- The test stands in the key condition or in the filter as a clause made of names, which the
tables of the statement resolve. -/
def Statement.Tests (statement : Statement) (test : StoreTest) : Prop :=
  ∃ clause whole, (statement.keyCondition = some whole ∨ statement.filter = some whole) ∧
    StandsIn clause.text whole ∧ NamesTest ⟨statement.names, statement.values⟩ test clause

namespace StorePlan

variable {query : Query} {schema : Schema} {consistentRead : Bool} {plan : StorePlan}

/-- What a predicate is lowered to is tested by the statement. -/
theorem exists_tests_of_compile (compiled : compile query schema consistentRead = .ok plan)
    {predicate : Predicate} (member : predicate ∈ query.predicates) :
    ∃ test, predicate.storeTest query.parameters = .ok test ∧ plan.statement.Tests test := by
  obtain ⟨table, key, claimed, forward, _, _, split, _, _, rfl⟩ := compile_ok compiled
  obtain ⟨sources, lowered, predicates⟩ := exists_sources_of_parts split
  have inSources : predicate ∈ sources.flatMap Formula.atoms := predicates ▸ member
  obtain ⟨source, isSource, inSource⟩ := List.mem_flatMap.mp inSources
  have worded := wording_lowered lowered key
    (projected query.columns (NameSet.insertAll schema.primary.fields key.fields))
  obtain ⟨⟨claim, formula⟩, isClause, related⟩ := Related.exists_of_mem worded isSource
  obtain ⟨clause, inFormula, test, predicateLowered, named⟩ :=
    Related.exists_of_mem (Formula.forall₂_atoms related) inSource
  refine ⟨test, predicateLowered, clause, ?_⟩
  have inWording : clause ∈ Wording.allClauses _ :=
    List.mem_flatMap.mpr ⟨(claim, formula), isClause, inFormula⟩
  rcases Wording.mem_allClauses_iff.mp inWording with inKey | inFilter
  · obtain ⟨whole, isKey, inWhole⟩ := StoreExpression.exists_conjunction? inKey
    exact ⟨whole, .inl isKey, inWhole, named⟩
  · obtain ⟨whole, isFilter, inWhole⟩ := StoreExpression.exists_conjunction? inFilter
    exact ⟨whole, .inr isFilter, inWhole, named⟩

end StorePlan

end DocQuery
