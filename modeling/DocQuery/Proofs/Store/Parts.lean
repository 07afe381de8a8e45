import DocQuery.Proofs.Condition.Formula
import DocQuery.Store.Plan

/-!
# Parts of a condition

Splitting a condition gives parts that were each lowered from a condition of their own. These
sources hold together exactly if the runs of the condition do, and they have the same predicates
in the same order: nothing is lost when a group is taken apart or kept as a whole.
-/

namespace DocQuery.StorePlan

/-- The part was lowered from this condition, predicate by predicate. -/
def LoweredFrom (parameters : Parameters) (source : Condition) (part : Part) : Prop :=
  Chain.Corresponds (Tree.Corresponds fun predicate test =>
    predicate.storeTest parameters = .ok test) source part.formula

/-- The parts were lowered from conditions that hold together when this one does, and that have
its predicates. -/
def Split (parameters : Parameters) (holds : (Predicate → Bool) → Bool)
    (predicates : List Predicate) (parts : List Part) : Prop :=
  ∃ sources : List Condition,
    List.Forall₂ (LoweredFrom parameters) sources parts ∧
      sources.flatMap Formula.atoms = predicates ∧
      ∀ truth, (sources.all fun source => source.holds truth) = holds truth

def runHolds (run : List (Tree Predicate)) (truth : Predicate → Bool) : Bool :=
  run.any fun node => node.fold truth Chain.holds

variable {key : Key} {parameters : Parameters}

theorem wholePart_split {formula : Condition} {parts : List Part}
    (lowered : wholePart parameters formula = .ok parts) :
    Split parameters (fun truth => formula.holds truth) formula.atoms parts := by
  simp only [wholePart, Fallible.bind_eq_ok_iff, Fallible.pure_eq_ok_iff] at lowered
  obtain ⟨tests, visited, rfl⟩ := lowered
  have corresponds := (Tree.traverseChain_ok visited).imp
    fun node _ image nodeVisited => Tree.traverse_ok nodeVisited
  exact ⟨[formula], .cons corresponds .nil, by simp, by simp⟩

theorem leaf_lowered {predicate : Predicate} {test : StoreTest} (claim : Option String)
    (lowered : predicate.storeTest parameters = .ok test) :
    LoweredFrom parameters (Formula.leaf predicate) ⟨claim, Formula.leaf test⟩ :=
  .single (.leaf lowered)

theorem claimedParts_split {claims : List (String × Predicate)} {parts : List Part}
    (lowered : claimedParts parameters claims = .ok parts) :
    Split parameters (fun truth => (claims.map Prod.snd).all truth)
      (claims.map Prod.snd) parts := by
  induction claims generalizing parts with
  | nil =>
      simp only [claimedParts, Except.ok.injEq] at lowered
      subst lowered
      exact ⟨[], .nil, rfl, fun _ => rfl⟩
  | cons claim rest inductionHypothesis =>
      obtain ⟨field, predicate⟩ := claim
      simp only [claimedParts, Fallible.bind_eq_ok_iff, Fallible.pure_eq_ok_iff] at lowered
      obtain ⟨test, predicateLowered, others, restLowered, rfl⟩ := lowered
      obtain ⟨sources, fromSources, atoms, holds⟩ := inductionHypothesis restLowered
      refine ⟨Formula.leaf predicate :: sources,
        .cons (leaf_lowered _ predicateLowered) fromSources, ?_, ?_⟩
      · simp [Formula.atoms_eq_flatMap_items, Formula.leaf, Chain.items, atoms]
      · intro truth
        simp [Formula.holds_leaf, holds]

theorem claimAll?_predicates {taken : List String} {predicates : List Predicate}
    {claims : List (String × Predicate)}
    (claimed : claimAll? key parameters taken predicates = .ok (some claims)) :
    claims.map Prod.snd = predicates := by
  induction predicates generalizing taken claims with
  | nil =>
      simp only [claimAll?, Except.ok.injEq, Option.some.injEq] at claimed
      simp [← claimed]
  | cons predicate rest inductionHypothesis =>
      simp only [claimAll?, Fallible.bind_eq_ok_iff] at claimed
      obtain ⟨claim, _, claimed⟩ := claimed
      cases claim with
      | none =>
          simp [Fallible.pure_eq_ok_iff] at claimed
      | some field =>
          simp only [Fallible.bind_eq_ok_iff, Fallible.pure_eq_ok_iff, Option.map_eq_some_iff]
            at claimed
          obtain ⟨others, restClaimed, otherClaims, rfl, rfl⟩ := claimed
          simp [inductionHypothesis restClaimed]

/-- What a run is split into: a predicate and a group that claims keys are taken apart, any other
run is one part. -/
inductive RunParts (key : Key) (parameters : Parameters) (taken : List String) :
    List (Tree Predicate) → List Part → Prop
  | empty : RunParts key parameters taken [] []
  | leaf {predicate : Predicate} {claim : Option String} {test : StoreTest} :
      claim? key parameters taken predicate = .ok claim →
      predicate.storeTest parameters = .ok test →
      RunParts key parameters taken [.leaf predicate] [⟨claim, Formula.leaf test⟩]
  | claimed {inner : Condition} {claims : List (String × Predicate)} {parts : List Part} :
      Formula.conjunctive inner = true →
      claimAll? key parameters taken (Formula.atoms inner) = .ok (some claims) →
      claimedParts parameters claims = .ok parts →
      RunParts key parameters taken [.group inner] parts
  | group {inner : Condition} {parts : List Part} :
      wholePart parameters inner = .ok parts →
      RunParts key parameters taken [.group inner] parts
  | several {first second : Tree Predicate} {others : List (Tree Predicate)}
      {parts : List Part} :
      wholePart parameters (Chain.ofList .or first (second :: others)) = .ok parts →
      RunParts key parameters taken (first :: second :: others) parts

theorem runParts_ok {taken : List String} {run : List (Tree Predicate)} {parts : List Part}
    (split : runParts key parameters taken run = .ok parts) :
    RunParts key parameters taken run parts := by
  match run with
  | [] =>
      cases split
      exact .empty
  | [.leaf predicate] =>
      simp only [runParts, Fallible.bind_eq_ok_iff, Fallible.pure_eq_ok_iff] at split
      obtain ⟨claim, claimed, test, lowered, rfl⟩ := split
      exact .leaf claimed lowered
  | [.group inner] =>
      simp only [runParts] at split
      by_cases conjunctive : Formula.conjunctive inner = true
      · rw [if_pos conjunctive, Fallible.bind_eq_ok_iff] at split
        obtain ⟨claims, claimed, split⟩ := split
        cases claims with
        | none =>
            exact .group split
        | some claims =>
            exact .claimed conjunctive claimed split
      · rw [if_neg conjunctive] at split
        exact .group split
  | first :: second :: others =>
      simp only [runParts] at split
      exact .several split

theorem runHolds_group (inner : Condition) (truth : Predicate → Bool) :
    runHolds [.group inner] truth = inner.holds truth := by
  rw [← Formula.holds_group, Formula.holds_eq_all_runs]
  simp [runHolds, Formula.group, Chain.runs]

theorem atoms_group_run (inner : Condition) :
    [Tree.group inner].flatMap Tree.atoms = Formula.atoms inner := by
  rw [← Formula.atoms_group, Formula.atoms_eq_flatMap_items]
  rfl

theorem runParts_split {taken : List String} {run : List (Tree Predicate)} {parts : List Part}
    (nonempty : run ≠ []) (split : runParts key parameters taken run = .ok parts) :
    Split parameters (runHolds run) (run.flatMap Tree.atoms) parts := by
  cases runParts_ok split with
  | empty =>
      exact absurd rfl nonempty
  | leaf claimed lowered =>
      refine ⟨[Formula.leaf _], .cons (leaf_lowered _ lowered) .nil, ?_, ?_⟩
      · simp [Formula.atoms_eq_flatMap_items, Formula.leaf, Chain.items]
      · intro truth
        simp [Formula.holds_leaf, runHolds]
  | @claimed inner claims _ conjunctive claimed lowered =>
      have predicates := claimAll?_predicates claimed
      obtain ⟨sources, fromSources, atoms, holds⟩ := claimedParts_split lowered
      refine ⟨sources, fromSources, ?_, ?_⟩
      · rw [atoms, predicates, atoms_group_run]
      · intro truth
        simp only [holds, predicates, runHolds_group,
          Formula.holds_of_conjunctive truth conjunctive]
  | group lowered =>
      obtain ⟨sources, fromSources, atoms, holds⟩ := wholePart_split lowered
      refine ⟨sources, fromSources, ?_, ?_⟩
      · rw [atoms, atoms_group_run]
      · intro truth
        simp only [holds, runHolds_group]
  | several lowered =>
      obtain ⟨sources, fromSources, atoms, holds⟩ := wholePart_split lowered
      refine ⟨sources, fromSources, ?_, ?_⟩
      · rw [atoms, Formula.atoms_ofList_or]
      · intro truth
        rw [holds]
        simp [runHolds, Formula.holds_eq_all_runs, Chain.runs_ofList_or]

/-- The parts of a condition hold together exactly if its runs do. -/
theorem parts_split {taken : List String} {runs : List (List (Tree Predicate))}
    {allParts : List Part} (nonempty : ∀ run ∈ runs, run ≠ [])
    (split : parts key parameters taken runs = .ok allParts) :
    Split parameters (fun truth => runs.all fun run => runHolds run truth)
      (runs.flatten.flatMap Tree.atoms) allParts := by
  induction runs generalizing taken allParts with
  | nil =>
      simp only [parts, Except.ok.injEq] at split
      subst split
      exact ⟨[], .nil, rfl, fun _ => rfl⟩
  | cons run rest inductionHypothesis =>
      simp only [parts, Fallible.bind_eq_ok_iff, Fallible.pure_eq_ok_iff] at split
      obtain ⟨first, runSplit, others, restSplit, rfl⟩ := split
      obtain ⟨firstSources, fromFirst, firstAtoms, firstHolds⟩ :=
        runParts_split (nonempty run (by simp)) runSplit
      obtain ⟨otherSources, fromOthers, otherAtoms, otherHolds⟩ :=
        inductionHypothesis (fun other member => nonempty other (by simp [member])) restSplit
      refine ⟨firstSources ++ otherSources, List.rel_append fromFirst fromOthers, ?_, ?_⟩
      · simp [firstAtoms, otherAtoms]
      · intro truth
        rw [List.all_append, firstHolds, otherHolds]
        rfl

/-- The parts of a query's condition come from conditions that have its predicates. -/
theorem exists_sources_of_parts {query : Query} {claimed : List Part}
    (split : parts key query.parameters [] ((query.condition.map Chain.runs).getD []) =
      .ok claimed) :
    ∃ sources, List.Forall₂ (LoweredFrom query.parameters) sources claimed ∧
      sources.flatMap Formula.atoms = (query.condition.map Formula.atoms).getD [] := by
  cases found : query.condition with
  | none =>
      rw [found] at split
      obtain ⟨sources, lowered, predicates, _⟩ := parts_split (by simp) split
      exact ⟨sources, lowered, predicates⟩
  | some condition =>
      rw [found] at split
      obtain ⟨sources, lowered, predicates, _⟩ :=
        parts_split (fun run member => Chain.ne_nil_of_mem_runs member) split
      refine ⟨sources, lowered, ?_⟩
      rw [predicates, Chain.flatten_runs, ← Formula.atoms_eq_flatMap_items]
      rfl

end DocQuery.StorePlan
