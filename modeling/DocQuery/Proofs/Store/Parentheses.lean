import DocQuery.Proofs.Condition.Parentheses
import DocQuery.Proofs.Store.Plan

/-!
# Parentheses around a predicate do not change a plan

A lone predicate and the same predicate in parentheses take different ways through the compiler:
the first one is a part of its own, and the other one is a group, which claims keys if all its
members do. Stage by stage the results differ in the parentheses of the parts only, and these
leave no trace in the texts of the expressions.
-/

namespace DocQuery

namespace StoreExpression

theorem text_bare (formula : Formula StoreClause) : text formula.bare = text formula := by
  rw [text, text, Formula.foldChain_bare]
  intro clause
  rfl

theorem conjunction?_bare (formulas : List (Formula StoreClause)) :
    conjunction? (formulas.map Formula.bare) = conjunction? formulas := by
  match formulas with
  | [] =>
      rfl
  | [formula] =>
      simp only [List.map_cons, List.map_nil, conjunction?, text_bare]
  | first :: second :: others =>
      simp [conjunction?, text_bare, Formula.isSingle_bare, Function.comp_def]

end StoreExpression

namespace StorePlan

/-- The part without the parentheses around single tests. -/
def Part.bare (part : Part) : Part :=
  { part with formula := part.formula.bare }

@[simp]
theorem Part.bare_leaf (claim : Option String) (test : StoreTest) :
    Part.bare ⟨claim, Formula.leaf test⟩ = ⟨claim, Formula.leaf test⟩ := by
  simp [Part.bare, Formula.bare, Formula.leaf, Chain.map]

variable (key : Key) (parameters : Parameters)

theorem wholePart_bare (formula : Condition) :
    wholePart parameters formula.bare = List.map Part.bare <$> wholePart parameters formula := by
  simp [wholePart, Formula.traverse_bare, Part.bare]

theorem claimedParts_bare (claims : List (String × Predicate)) :
    List.map Part.bare <$> claimedParts parameters claims = claimedParts parameters claims := by
  induction claims with
  | nil =>
      rfl
  | cons claim rest inductionHypothesis =>
      simp only [claimedParts, map_bind, map_pure, List.map_cons, Part.bare_leaf]
      refine bind_congr fun test => ?_
      conv_rhs => rw [← inductionHypothesis]
      simp

theorem runParts_group (taken : List String) (inner : Condition) :
    runParts key parameters taken [.group inner] =
      (if inner.conjunctive then claimAll? key parameters taken inner.atoms else pure none) >>=
        fun claims => claims.elim (wholePart parameters inner) (claimedParts parameters) := by
  simp only [runParts]
  by_cases conjunctive : inner.conjunctive = true
  · rw [if_pos conjunctive, if_pos conjunctive]
    refine bind_congr fun claims => ?_
    cases claims <;> rfl
  · rw [if_neg conjunctive, if_neg conjunctive]
    rfl

theorem runParts_several (taken : List String) (first second : Tree Predicate)
    (others : List (Tree Predicate)) :
    runParts key parameters taken (first :: second :: others) =
      wholePart parameters (Chain.ofList .or first (second :: others)) := by
  simp only [runParts]

/-- A predicate in parentheses claims the key that it claims without them. -/
theorem runParts_lone (taken : List String) {inner : Condition} {predicate : Predicate}
    (lone : inner.bare = Formula.leaf predicate) :
    runParts key parameters taken [.leaf predicate] =
      List.map Part.bare <$> runParts key parameters taken [.group inner] := by
  have atoms : inner.atoms = [predicate] := by
    rw [← Formula.atoms_bare, lone]
    rfl
  have conjunctive : inner.conjunctive = true := by
    rw [← Formula.conjunctive_bare, lone]
    rfl
  have whole := wholePart_bare parameters inner
  rw [lone] at whole
  rw [runParts_group]
  simp only [runParts, conjunctive, if_true, atoms, claimAll?, bind_assoc, map_bind]
  refine bind_congr fun claim => ?_
  cases claim with
  | none =>
      rw [pure_bind, Option.elim_none, ← whole]
      simp [wholePart, Formula.leaf, Formula.traverse, Tree.traverseChain, Tree.traverse]
  | some field =>
      have claimed := claimedParts_bare parameters [(field, predicate)]
      change _ = List.map Part.bare <$> claimedParts parameters [(field, predicate)]
      rw [claimed]
      rfl

/-- The parts of a run without parentheses around single predicates are those of the run, without
the parentheses. -/
theorem runParts_bare (taken : List String) (run : List (Tree Predicate)) :
    runParts key parameters taken (run.map Tree.bare) =
      List.map Part.bare <$> runParts key parameters taken run := by
  match run with
  | [] =>
      rfl
  | [.leaf predicate] =>
      simp [runParts]
  | [.group inner] =>
      rcases Tree.ofMembers_cases (inner.map Tree.bare) with ⟨predicate, single, lone⟩ | grouped
      · rw [List.map_singleton, Tree.bare_group, lone]
        exact runParts_lone key parameters taken single
      · have bareGroup : Tree.bare (.group inner) = .group (Formula.bare inner) := by
          rw [Tree.bare_group, grouped]
          rfl
        simp only [List.map_singleton, bareGroup, runParts_group, Formula.atoms_bare,
          Formula.conjunctive_bare, map_bind]
        refine bind_congr fun claims => ?_
        cases claims with
        | none =>
            exact wholePart_bare parameters inner
        | some claimed =>
            exact (claimedParts_bare parameters claimed).symm
  | first :: second :: others =>
      have bareRun : Chain.ofList .or first.bare ((second :: others).map Tree.bare) =
          Formula.bare (Chain.ofList .or first (second :: others)) :=
        (Chain.map_ofList Tree.bare .or first (second :: others)).symm
      rw [runParts_several, ← wholePart_bare, ← bareRun]
      exact runParts_several key parameters taken first.bare second.bare (others.map Tree.bare)

theorem parts_bare (taken : List String) (runs : List (List (Tree Predicate))) :
    parts key parameters taken (runs.map (List.map Tree.bare)) =
      List.map Part.bare <$> parts key parameters taken runs := by
  induction runs generalizing taken with
  | nil =>
      rfl
  | cons run rest inductionHypothesis =>
      have claims (first : List Part) :
          (first.map Part.bare).filterMap Part.claim = first.filterMap Part.claim := by
        rw [List.filterMap_map]
        rfl
      simp only [List.map_cons, parts, runParts_bare, bind_map_left, claims, inductionHypothesis,
        map_bind, map_pure, List.map_append]

theorem nameParts_bare (parts : List Part) :
    nameParts (parts.map Part.bare) =
      List.map (Prod.map id Formula.bare) <$> nameParts parts := by
  induction parts with
  | nil =>
      rfl
  | cons part rest inductionHypothesis =>
      simp only [List.map_cons, nameParts, Part.bare, Formula.traverse_bare, inductionHypothesis,
        bind_map_left, map_bind, map_pure, Prod.map_apply, id_eq]

/-- The wording without the parentheses around single clauses. -/
def Wording.bare (wording : Wording) : Wording :=
  { wording with clauses := wording.clauses.map (Prod.map id Formula.bare) }

theorem wording_bare (parts : List Part) (columns : List String) :
    wording (parts.map Part.bare) columns = Wording.bare <$> wording parts columns := by
  simp only [wording, nameParts_bare, bind_map_left, map_bind, map_pure]
  rfl

theorem Wording.conjunction?_bare (wording : Wording) (keep : Option String → Bool) :
    StoreExpression.conjunction?
        ((wording.bare.clauses.filter fun clause => keep clause.1).map Prod.snd) =
      StoreExpression.conjunction?
        ((wording.clauses.filter fun clause => keep clause.1).map Prod.snd) := by
  have formulas : (wording.bare.clauses.filter fun clause => keep clause.1).map Prod.snd =
      ((wording.clauses.filter fun clause => keep clause.1).map Prod.snd).map Formula.bare := by
    rw [Wording.bare, List.filter_map, List.map_map, List.map_map]
    rfl
  rw [formulas, StoreExpression.conjunction?_bare]

theorem Wording.keyCondition_bare (wording : Wording) :
    wording.bare.keyCondition = wording.keyCondition :=
  wording.conjunction?_bare Option.isSome

theorem Wording.filter_bare (wording : Wording) : wording.bare.filter = wording.filter :=
  wording.conjunction?_bare Option.isNone

theorem run_wording_bare (parts : List Part) (columns : List String) (names : Names) :
    (wording (parts.map Part.bare) columns).run names =
      (((wording parts columns).run names).1.bare, ((wording parts columns).run names).2) := by
  rw [wording_bare]
  rfl

theorem isIndexed_bare (parts : List Part) :
    isIndexed key (parts.map Part.bare) = isIndexed key parts := by
  rw [isIndexed, List.any_map]
  rfl

theorem kept_bare (parts : List Part) :
    kept key (parts.map Part.bare) = (kept key parts).map Part.bare := by
  rw [kept, kept, isIndexed_bare]
  split
  · rfl
  · rw [List.map_map, List.map_map]
    rfl

/-- A query and the same query with a bare condition have one plan, or one error. -/
theorem compile_bare (query : Query) (condition : Condition) (schema : Schema)
    (consistentRead : Bool) :
    compile { query with condition := some condition.bare } schema consistentRead =
      compile { query with condition := some condition } schema consistentRead := by
  have runs : condition.bare.runs = condition.runs.map (List.map Tree.bare) := Chain.runs_map ..
  simp only [compile]
  refine bind_congr fun table => ?_
  refine bind_congr fun key => ?_
  simp only [Option.map_some, Option.getD_some, runs, parts_bare, bind_map_left]
  refine bind_congr fun claimed => ?_
  have indexed := isIndexed_bare key claimed
  have keptParts := kept_bare key claimed
  simp only [isIndexed] at indexed
  simp only [kept, isIndexed, indexed] at keptParts
  simp only [indexed, keptParts, run_wording_bare, Wording.keyCondition_bare, Wording.filter_bare]
  rfl

/-- Parentheses that are put around predicates, however many and wherever they stand, change neither
the plan of a query nor the error that it ends with. -/
theorem compile_parenthesized {condition wrapped : Condition}
    (wraps : Formula.Wraps condition wrapped) (query : Query) (schema : Schema)
    (consistentRead : Bool) :
    compile { query with condition := some wrapped } schema consistentRead =
      compile { query with condition := some condition } schema consistentRead := by
  rw [← compile_bare query wrapped, ← wraps.bare_eq, compile_bare]

/-- A condition on both attributes of the key `id`, `created`, with a group that claims no key and
a run of alternatives, one of which is a group. Each predicate may be put in parentheses. -/
def enclosedCondition (around : Nat → Tree Predicate → Tree Predicate) : Condition :=
  .link (around 1 (.leaf ⟨"id", .compare .eq, some (.parameter "id")⟩)) .and
    (.link (around 2 (.leaf ⟨"created", .like, some (.literal (.string "2024%"))⟩)) .and
      (.link (.group (.link (around 1 (.leaf ⟨"id", .compare .ne, some (.parameter "id")⟩)) .and
          (.single (around 3 (.leaf ⟨"a", .isNull, none⟩))))) .and
        (.link (around 1 (.leaf ⟨"b", .compare .gt, some (.literal (.string "x"))⟩)) .or
          (.single (.group (.link (.leaf ⟨"c", .isNotNull, none⟩) .or
            (.single (around 2 (.leaf ⟨"d", .compare .eq, some (.parameter "id")⟩)))))))))

def enclosedQuery : Query where
  sources := ["orders"]
  index := none
  condition := none
  parameters := [("id", .string "o7")]
  columns := []
  order := []
  limit := 0
  skip := 0

theorem compile_parenthesized_enclosedQuery :
    Formula.Wraps (enclosedCondition fun _ node => node) (enclosedCondition Tree.enclosed) ∧
      (compile { enclosedQuery with condition := some (enclosedCondition fun _ node => node) }
        ⟨[], ⟨"id", some "created"⟩, []⟩ false).map
          (fun plan => (plan.statement.keyCondition, plan.statement.filter)) =
        .ok (some "#id = :id AND begins_with(#created, :lit1)",
          some ("(#id <> :id AND attribute_not_exists(#a)) AND " ++
            "(#b > :lit2 OR (attribute_exists(#c) OR #d = :id))")) ∧
      compile { enclosedQuery with condition := some (enclosedCondition Tree.enclosed) }
          ⟨[], ⟨"id", some "created"⟩, []⟩ false =
        compile { enclosedQuery with condition := some (enclosedCondition fun _ node => node) }
          ⟨[], ⟨"id", some "created"⟩, []⟩ false := by
  have wraps : Formula.Wraps (enclosedCondition fun _ node => node)
      (enclosedCondition Tree.enclosed) :=
    .link .and (.leaf _ 1) (.link .and (.leaf _ 2) (.link .and
      (.group (.link .and (.leaf _ 1) (.single (.leaf _ 3))))
      (.link .or (.leaf _ 1) (.single (.group (.link .or (.leaf _ 0) (.single (.leaf _ 2))))))))
  exact ⟨wraps, by decide +kernel, compile_parenthesized wraps enclosedQuery _ false⟩

end StorePlan

end DocQuery
