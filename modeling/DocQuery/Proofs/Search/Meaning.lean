import DocQuery.Proofs.Condition.Formula
import DocQuery.Proofs.Search.Reading
import DocQuery.Search.Plan
import Mathlib.Data.List.Perm.Basic

/-!
# What a search means

A chain of clauses becomes one `bool` combination. Runs of one member go to `must` and `must_not`;
a run of several members goes to `should` if there is no other such run, and otherwise stands in
`must` as a combination of its own. Either way the combination is true exactly if every run has
a true member, and every test of the condition occurs once.
-/

namespace DocQuery

/-- The test that a clause makes of a field, leaving aside whether it is negated. -/
def SearchLeaf.ofTest (field : String) : Test → SearchLeaf
  | .compare .eq value | .compare .ne value => .term field value
  | .compare .gt value => .range field (Json.tagged "gt" value)
  | .compare .ge value => .range field (Json.tagged "gte" value)
  | .compare .lt value => .range field (Json.tagged "lt" value)
  | .compare .le value => .range field (Json.tagged "lte" value)
  | .isIn candidates | .notIn candidates => .terms field candidates
  | .isNull | .isNotNull => .exist field
  | .like pattern =>
      match Pattern.classify pattern with
      | .exact text => .term field (.string text)
      | _ => .wildcard field
          (String.ofList (pattern.toList.map fun c => if c = '%' then '*' else c))

/-- Whether a test is the negation of another one. -/
def Test.isNegation : Test → Bool
  | .compare .ne _ | .notIn _ | .isNull => true
  | _ => false

/-- The test that a predicate makes or negates. -/
def Predicate.searchLeaf? (parameters : Parameters) (predicate : Predicate) :
    Option SearchLeaf :=
  match predicate.test parameters with
  | .ok test => some (.ofTest predicate.field test)
  | .error _ => none

/-- Whether a predicate is true, given which tests of fields are. -/
def Predicate.searchTruth? (truth : SearchLeaf → Bool) (parameters : Parameters)
    (predicate : Predicate) : Option Bool :=
  match predicate.test parameters with
  | .ok test =>
      let value := truth (.ofTest predicate.field test)
      some (if test.isNegation then !value else value)
  | .error _ => none

def SearchQuery.leaves (query : SearchQuery) : List SearchLeaf :=
  query.fold (fun leaf => [leaf]) BoolClause.contents

theorem SearchQuery.leaves_bool (must mustNot should : List SearchQuery) :
    (bool must mustNot should).leaves =
      must.flatMap leaves ++ mustNot.flatMap leaves ++ should.flatMap leaves := by
  simp only [leaves, fold, foldAll_eq_map, BoolClause.contents, List.flatMap_def]
  rfl

/-- The test stands in the JSON of the search. -/
def Search.Tests (search : Search) (leaf : SearchLeaf) : Prop :=
  ∃ made leaves, search.query = some made ∧ made.encode.searchLeaves? = some leaves ∧
    leaf ∈ leaves

namespace SearchClause

variable (truth : SearchLeaf → Bool)

def holds (clause : SearchClause) : Bool :=
  let value := clause.term.fold truth BoolClause.holds
  if clause.negated then !value else value

theorem ofTest_term_fold {β : Type} (onLeaf : SearchLeaf → β) (onBool : BoolClause β → β)
    (field : String) (test : Test) :
    (ofTest field test).term.fold onLeaf onBool = onLeaf (.ofTest field test) := by
  cases test with
  | compare comparator value =>
      cases comparator <;>
        simp [ofTest, SearchLeaf.ofTest, positive, negative, range, SearchQuery.fold,
          Bounds.encode, Bounds.none, Wire.write?, Json.tagged]
  | like pattern =>
      simp only [ofTest, SearchLeaf.ofTest]
      cases Pattern.classify pattern <;> simp [positive, SearchQuery.fold]
  | _ =>
      simp [ofTest, SearchLeaf.ofTest, positive, negative, SearchQuery.fold]

theorem ofTest_negated (field : String) (test : Test) :
    (ofTest field test).negated = test.isNegation := by
  cases test with
  | compare comparator value =>
      cases comparator <;> rfl
  | like pattern =>
      simp only [ofTest, Test.isNegation]
      cases Pattern.classify pattern <;> rfl
  | _ =>
      rfl

/-- As an alternative a clause keeps its truth value. -/
theorem fold_alternative (clause : SearchClause) :
    clause.alternative.fold truth BoolClause.holds = clause.holds truth := by
  unfold alternative holds
  split <;> simp_all [SearchQuery.fold, SearchQuery.foldAll, BoolClause.holds]

theorem leaves_alternative (clause : SearchClause) :
    clause.alternative.leaves = clause.term.leaves := by
  unfold alternative
  split <;> simp [SearchQuery.leaves_bool]

end SearchClause

namespace SearchPlan

variable (truth : SearchLeaf → Bool)

/-- Whether what a run puts into `must` and `must_not` is true. -/
def demandsHold (alone : Bool) (run : List SearchClause) : Bool :=
  (mustOf alone run).all (fun query => query.fold truth BoolClause.holds) &&
    !(mustNotOf run).any fun query => query.fold truth BoolClause.holds

theorem demandsHold_single (alone : Bool) (clause : SearchClause) :
    demandsHold truth alone [clause] = clause.holds truth := by
  cases negated : clause.negated <;>
    simp [demandsHold, SearchClause.holds, mustOf, mustNotOf, negated]

/-- A run of several members demands something only if there are other such runs. -/
theorem demandsHold_several (alone : Bool) {run : List SearchClause} (several : 1 < run.length) :
    demandsHold truth alone run = (alone || run.any fun clause => clause.holds truth) := by
  match run with
  | first :: second :: others =>
      cases alone <;>
        simp [demandsHold, mustOf, mustNotOf, SearchQuery.fold, SearchQuery.foldAll_eq_map,
          BoolClause.holds, SearchClause.fold_alternative, Function.comp_def]

def several (run : List SearchClause) : Bool :=
  1 < run.length

def anyHolds (run : List SearchClause) : Bool :=
  run.any fun clause => clause.holds truth

/-- Among several runs of several members each demands to be true. -/
theorem all_demandsHold {runs : List (List SearchClause)} (nonempty : ∀ run ∈ runs, run ≠ []) :
    runs.all (demandsHold truth false) = runs.all (anyHolds truth) := by
  rw [Bool.eq_iff_iff, List.all_eq_true, List.all_eq_true]
  refine forall₂_congr fun run member => ?_
  match run, nonempty run member with
  | [clause], _ =>
      simp [demandsHold_single, anyHolds]
  | first :: second :: others, _ =>
      simp [demandsHold_several, anyHolds]

/-- A run alone in having several members leaves its demand to the alternatives. -/
theorem all_anyHolds {runs : List (List SearchClause)} (nonempty : ∀ run ∈ runs, run ≠ []) :
    runs.all (anyHolds truth) =
      (runs.all (demandsHold truth true) && (runs.filter several).all (anyHolds truth)) := by
  induction runs with
  | nil =>
      rfl
  | cons run rest inductionHypothesis =>
      have restEqual := inductionHypothesis fun other member =>
        nonempty other (List.mem_cons_of_mem _ member)
      match run, nonempty run List.mem_cons_self with
      | [clause], _ =>
          simp [restEqual, demandsHold_single, anyHolds, several, Bool.and_assoc]
      | first :: second :: others, _ =>
          simp [restEqual, demandsHold_several, several, Bool.and_left_comm]

theorem any_shouldOf (runs : List (List SearchClause)) :
    ((runs.flatMap (shouldOf true)).any fun query => query.fold truth BoolClause.holds) =
      (runs.filter several).any (anyHolds truth) := by
  induction runs with
  | nil =>
      rfl
  | cons run rest inductionHypothesis =>
      rw [List.flatMap_cons, List.any_append, inductionHypothesis]
      match run with
      | [] =>
          simp [shouldOf, several]
      | [clause] =>
          simp [shouldOf, several]
      | first :: second :: others =>
          simp [shouldOf, several, anyHolds, SearchClause.fold_alternative, Function.comp_def]

theorem shouldOf_false (run : List SearchClause) : shouldOf false run = [] := by
  unfold shouldOf
  split <;> simp

theorem shouldOf_ne_nil {run : List SearchClause} (severalMembers : several run = true) :
    shouldOf true run ≠ [] := by
  match run with
  | first :: second :: others =>
      simp [shouldOf]

theorem fold_bool (must mustNot should : List SearchQuery) :
    (SearchQuery.bool must mustNot should).fold truth BoolClause.holds =
      (must.all (fun query => query.fold truth BoolClause.holds) &&
        !mustNot.any (fun query => query.fold truth BoolClause.holds) &&
        (should.isEmpty || should.any fun query => query.fold truth BoolClause.holds)) := by
  simp only [SearchQuery.fold, SearchQuery.foldAll_eq_map, BoolClause.holds, List.all_map,
    List.any_map, Bool.not_not]
  rfl

theorem all_demands (alone : Bool) (runs : List (List SearchClause)) :
    ((runs.flatMap (mustOf alone)).all (fun query => query.fold truth BoolClause.holds) &&
      !(runs.flatMap mustNotOf).any fun query => query.fold truth BoolClause.holds) =
        runs.all (demandsHold truth alone) := by
  induction runs with
  | nil =>
      rfl
  | cons run rest inductionHypothesis =>
      rw [List.all_cons, ← inductionHypothesis]
      simp [demandsHold, Bool.and_assoc, Bool.and_left_comm]

/-- The term of a chain is true when the chain is. -/
theorem fold_chainTerm (members : Chain SearchClause) :
    (chainTerm members).fold truth BoolClause.holds =
      (members.map (SearchClause.holds truth)).holds := by
  have nonempty : ∀ run ∈ members.runs, run ≠ [] := fun run => Chain.ne_nil_of_mem_runs
  have asRuns : (members.map (SearchClause.holds truth)).holds =
      members.runs.all (anyHolds truth) := by
    simp only [Chain.holds, Chain.runs_map, List.all_map, List.any_map, Function.comp_def]
    rfl
  let alone := (members.runs.filter several).length == 1
  change (SearchQuery.bool (members.runs.flatMap (mustOf alone))
    (members.runs.flatMap mustNotOf) (members.runs.flatMap (shouldOf alone))).fold
      truth BoolClause.holds = _
  rw [asRuns, fold_bool, all_demands]
  cases isAlone : alone with
  | true =>
      obtain ⟨run, single⟩ := List.length_eq_one_iff.mp (beq_iff_eq.mp isAlone)
      obtain ⟨member, severalMembers⟩ : run ∈ members.runs ∧ several run = true := by
        rw [← List.mem_filter, single]
        exact List.mem_singleton_self run
      have offered : (members.runs.flatMap (shouldOf true)).isEmpty = false := by
        rw [List.isEmpty_eq_false_iff]
        intro nothing
        exact shouldOf_ne_nil severalMembers (List.flatMap_eq_nil_iff.mp nothing run member)
      rw [all_anyHolds truth nonempty, any_shouldOf, single, offered]
      simp
  | false =>
      have nothing : members.runs.flatMap (shouldOf false) = [] :=
        List.flatMap_eq_nil_iff.mpr fun run _ => shouldOf_false run
      rw [nothing, all_demandsHold truth nonempty]
      simp

/-- Wherever a run goes, its tests go with it. -/
theorem run_leaves (alone : Bool) (run : List SearchClause) :
    (mustOf alone run).flatMap SearchQuery.leaves ++
        (mustNotOf run).flatMap SearchQuery.leaves ++
          (shouldOf alone run).flatMap SearchQuery.leaves =
      run.flatMap fun clause => clause.term.leaves := by
  match run with
  | [] =>
      cases alone <;> simp [mustOf, mustNotOf, shouldOf, SearchQuery.leaves_bool]
  | [clause] =>
      cases negated : clause.negated <;> simp [mustOf, mustNotOf, shouldOf, negated]
  | first :: second :: others =>
      cases alone <;>
        simp [mustOf, mustNotOf, shouldOf, SearchQuery.leaves_bool, SearchClause.leaves_alternative,
          List.flatMap_map]

/-- The term of a chain has the tests of its clauses, each as often as there. -/
theorem leaves_chainTerm (members : Chain SearchClause) :
    (chainTerm members).leaves.Perm (members.items.flatMap fun clause => clause.term.leaves) := by
  let alone := (members.runs.filter several).length == 1
  have asRuns : (chainTerm members).leaves =
      (members.runs.flatMap fun run => (mustOf alone run).flatMap SearchQuery.leaves) ++
        (members.runs.flatMap fun run => (mustNotOf run).flatMap SearchQuery.leaves) ++
          members.runs.flatMap fun run => (shouldOf alone run).flatMap SearchQuery.leaves := by
    simp only [← List.flatMap_assoc]
    exact SearchQuery.leaves_bool _ _ _
  rw [asRuns, ← Chain.flatten_runs, ← List.flatMap_id, List.flatMap_assoc]
  refine ((List.flatMap_append_perm _ _ _).append_right _).trans ?_
  refine (List.flatMap_append_perm _ _ _).trans (List.Perm.of_eq ?_)
  congr 1
  funext run
  exact run_leaves alone run

variable {parameters : Parameters} {predicate : Predicate} {made : SearchClause}

theorem clause_ok (compiled : clause parameters predicate = .ok made) :
    ∃ test, predicate.test parameters = .ok test ∧
      made = SearchClause.ofTest predicate.field test := by
  obtain ⟨test, tested, rfl⟩ := Fallible.map_eq_ok_iff.mp compiled
  exact ⟨test, tested, rfl⟩

theorem searchTruth?_of_clause (compiled : clause parameters predicate = .ok made) :
    predicate.searchTruth? truth parameters = some (made.holds truth) := by
  obtain ⟨test, tested, rfl⟩ := clause_ok compiled
  simp [Predicate.searchTruth?, tested, SearchClause.holds, SearchClause.ofTest_term_fold,
    SearchClause.ofTest_negated]

theorem searchLeaf?_of_clause (compiled : clause parameters predicate = .ok made) :
    ∃ leaf, predicate.searchLeaf? parameters = some leaf ∧ made.term.leaves = [leaf] := by
  obtain ⟨test, tested, rfl⟩ := clause_ok compiled
  refine ⟨_, by rw [Predicate.searchLeaf?, tested], ?_⟩
  exact SearchClause.ofTest_term_fold _ _ _ _

/-- The term of a condition is that of its clauses, which have its shape. -/
theorem term_ok {condition : Condition} {query : SearchQuery}
    (compiled : term parameters condition = .ok query) :
    ∃ clauses : Formula SearchClause,
      Tree.Corresponds (fun predicate made => clause parameters predicate = .ok made)
        (.group condition) (.group clauses) ∧
      (Tree.group clauses).fold id (fun members => SearchClause.positive (chainTerm members)) =
        SearchClause.positive query := by
  simp only [term, Fallible.bind_eq_ok_iff, Fallible.pure_eq_ok_iff] at compiled
  obtain ⟨clauses, visited, rfl⟩ := compiled
  refine ⟨clauses, .group ?_, ?_⟩
  · exact (Tree.traverseChain_ok visited).imp fun _ _ _ nodeVisited => Tree.traverse_ok nodeVisited
  · rfl

theorem fold_term {condition : Condition} {query : SearchQuery}
    (compiled : term parameters condition = .ok query) :
    condition.holds? (Predicate.searchTruth? truth parameters) =
      some (query.fold truth BoolClause.holds) := by
  obtain ⟨clauses, corresponds, whole⟩ := term_ok compiled
  have valued : ∀ predicate ∈ condition.atoms,
      ∃ value, predicate.searchTruth? truth parameters = some value := by
    intro predicate member
    obtain ⟨made, found⟩ := corresponds.exists_image predicate member
    exact ⟨_, searchTruth?_of_clause truth found⟩
  let value := fun predicate : Predicate =>
    (predicate.searchTruth? truth parameters).getD false
  have sameValue : (Tree.group condition).fold value Chain.holds =
      ((Tree.group clauses).fold id
        fun members => SearchClause.positive (chainTerm members)).holds truth := by
    refine Tree.Corresponds.fold (fun value made => value = SearchClause.holds truth made)
      ?_ ?_ corresponds
    · intro predicate made found
      simp [value, searchTruth?_of_clause truth found]
    · intro values members same
      rw [same.eq_map, ← fold_chainTerm]
      rfl
  rw [whole] at sameValue
  rw [Formula.holds?_eq_some valued]
  exact congrArg some sameValue

/-- The clause has the tests that these predicates make, in some order. -/
def Collects (parameters : Parameters) (predicates : List Predicate) (made : SearchClause) :
    Prop :=
  ∃ expected, List.Forall₂ (fun predicate leaf => predicate.searchLeaf? parameters = some leaf)
    predicates expected ∧ made.term.leaves.Perm expected

theorem collects_flatten {predicates : List (List Predicate)} {members : List SearchClause}
    (collect : List.Forall₂ (Collects parameters) predicates members) :
    ∃ expected, List.Forall₂
        (fun predicate leaf => predicate.searchLeaf? parameters = some leaf)
        predicates.flatten expected ∧
      (members.flatMap fun made => made.term.leaves).Perm expected := by
  induction collect with
  | nil =>
      exact ⟨[], .nil, .refl _⟩
  | cons first _ inductionHypothesis =>
      obtain ⟨expected, tests, same⟩ := first
      obtain ⟨others, otherTests, otherSame⟩ := inductionHypothesis
      exact ⟨expected ++ others, List.rel_append tests otherTests, same.append otherSame⟩

/-- The term of a condition has one test for each predicate. -/
theorem leaves_term {condition : Condition} {query : SearchQuery}
    (compiled : term parameters condition = .ok query) :
    ∃ expected, List.Forall₂
        (fun predicate leaf => predicate.searchLeaf? parameters = some leaf)
        condition.atoms expected ∧
      query.leaves.Perm expected := by
  obtain ⟨clauses, corresponds, whole⟩ := term_ok compiled
  have collects : Collects parameters (Tree.group condition).atoms
      ((Tree.group clauses).fold id
        fun members => SearchClause.positive (chainTerm members)) := by
    refine Tree.Corresponds.fold (Collects parameters) ?_ ?_ corresponds
    · intro predicate made found
      obtain ⟨leaf, tested, leaves⟩ := searchLeaf?_of_clause found
      exact ⟨[leaf], .cons tested .nil, .of_eq leaves⟩
    · intro predicates members collect
      obtain ⟨expected, tests, same⟩ := collects_flatten collect.items
      exact ⟨expected, tests, (leaves_chainTerm members).trans same⟩
  rw [whole] at collects
  exact collects

variable {query : Query} {search : Search}

theorem compile_ok (compiled : compile query = .ok search) :
    match query.condition with
    | none => search.query = none
    | some condition => ∃ made, term query.parameters condition = .ok made ∧
        search.query = some made := by
  simp only [compile] at compiled
  split at compiled
  · cases compiled
  · cases conditionFound : query.condition with
    | none =>
        simp only [conditionFound, pure_bind, Fallible.pure_eq_ok_iff] at compiled
        rw [← compiled]
    | some condition =>
        simp only [conditionFound, Fallible.bind_eq_ok_iff, Fallible.pure_eq_ok_iff] at compiled
        obtain ⟨made, termMade, rfl⟩ := compiled
        obtain ⟨term, found, rfl⟩ := Fallible.map_eq_ok_iff.mp termMade
        exact ⟨term, found, rfl⟩

/-- What a predicate of the condition tests is tested by the search. -/
theorem exists_leaf_of_compile (compiled : compile query = .ok search) {predicate : Predicate}
    (member : predicate ∈ (query.condition.map Formula.atoms).getD []) :
    ∃ leaf, predicate.searchLeaf? query.parameters = some leaf ∧ search.Tests leaf := by
  have asked := compile_ok compiled
  cases conditionFound : query.condition with
  | none =>
      simp [conditionFound] at member
  | some condition =>
      rw [conditionFound] at asked
      obtain ⟨made, termMade, found⟩ := asked
      obtain ⟨expected, tests, same⟩ := leaves_term termMade
      have inCondition : predicate ∈ condition.atoms := by
        simpa [conditionFound] using member
      obtain ⟨leaf, isExpected, tested⟩ := Related.exists_of_mem tests inCondition
      have read := SearchQuery.readClause?_encode (fun leaf => [leaf]) BoolClause.contents made
      exact ⟨leaf, tested, made, made.leaves, found, read, same.mem_iff.mpr isExpected⟩

/-- Compiling keeps the meaning of the condition: whichever tests of fields are true, the JSON of
the search can be read and is true exactly if the condition is; and it has one test for each
predicate of the condition. -/
theorem compile_preserves_meaning (compiled : compile query = .ok search) :
    (query.condition = none → search.query = none) ∧
      ∀ condition, query.condition = some condition →
        ∃ made, search.query = some made ∧
          (∀ truth, ∃ value, made.encode.searchTruth? truth = some value ∧
            condition.holds? (Predicate.searchTruth? truth query.parameters) = some value) ∧
          ∃ leaves expected, made.encode.searchLeaves? = some leaves ∧
            List.Forall₂
              (fun predicate leaf => predicate.searchLeaf? query.parameters = some leaf)
              condition.atoms expected ∧
            leaves.Perm expected := by
  have made := compile_ok compiled
  refine ⟨?_, ?_⟩
  · intro noCondition
    simpa [noCondition] using made
  · intro condition conditionFound
    rw [conditionFound] at made
    obtain ⟨query, termMade, found⟩ := made
    refine ⟨query, found, ?_, ?_⟩
    · intro truth
      exact ⟨_, SearchQuery.readClause?_encode _ _ query, fold_term truth termMade⟩
    · obtain ⟨expected, tests, same⟩ := leaves_term termMade
      exact ⟨_, expected, SearchQuery.readClause?_encode _ _ query, tests, same⟩

/-- A query with a negated predicate, two runs of two members, and a group in one of them. -/
def severalRuns : Query where
  sources := ["orders"]
  index := none
  condition := some (.link (.leaf ⟨"a", .compare .ne, some (.literal (.bool true))⟩) .and
    (.link (.leaf ⟨"b", .compare .eq, some (.literal (.bool true))⟩) .or
      (.link (.leaf ⟨"c", .isNull, none⟩) .and
        (.link
          (.group (.link (.leaf ⟨"d", .isIn, some (.literal (.bool true))⟩) .or
            (.single (.leaf ⟨"e", .like, some (.literal (.string "x%"))⟩))))
          .or
          (.single (.leaf ⟨"f", .compare .ge, some (.literal (.bool true))⟩))))))
  parameters := []
  columns := []
  order := []
  limit := 0
  skip := 0

theorem compile_preserves_meaning_severalRuns :
    ∃ search made leaves, compile severalRuns = .ok search ∧ search.query = some made ∧
      made = .bool
        [.bool [] [] [.term "b" (.bool true), .bool [] [.exist "c"] []],
          .bool [] [] [.bool [] [] [.terms "d" [.bool true], .wildcard "e" "x*"],
            .range "f" { Bounds.none with gte := some (.bool true) }]]
        [.term "a" (.bool true)] [] ∧
      (∀ truth, ∃ value, made.encode.searchTruth? truth = some value) ∧
      made.encode.searchLeaves? = some leaves ∧ leaves.length = 6 := by
  have compiles : ∃ search, compile severalRuns = .ok search ∧ search.query = some (.bool
      [.bool [] [] [.term "b" (.bool true), .bool [] [.exist "c"] []],
        .bool [] [] [.bool [] [] [.terms "d" [.bool true], .wildcard "e" "x*"],
          .range "f" { Bounds.none with gte := some (.bool true) }]]
      [.term "a" (.bool true)] []) := ⟨_, rfl, rfl⟩
  obtain ⟨search, compiled, asked⟩ := compiles
  obtain ⟨made, found, same, leaves, expected, read, tests, permuted⟩ :=
    (compile_preserves_meaning compiled).2 _ rfl
  refine ⟨search, made, leaves, compiled, found, ?_, ?_, read, ?_⟩
  · exact Option.some.inj (found.symm.trans asked)
  · intro truth
    obtain ⟨value, held, _⟩ := same truth
    exact ⟨value, held⟩
  · rw [permuted.length_eq, ← tests.length_eq]
    rfl

end SearchPlan

end DocQuery
