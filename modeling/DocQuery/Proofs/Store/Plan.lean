import DocQuery.Proofs.Store.Names
import DocQuery.Proofs.Store.Parts

/-!
# What a plan for a key-value store means

The main statement is that compiling keeps the meaning of the condition. A condition is true or
false once it is known which comparisons are true of which fields; the key condition and the
filter of a statement are read from their texts, with aliases and placeholders replaced through
the tables of the statement, and hold together exactly if the condition does.
-/

namespace DocQuery

open Expression

/-- Whether a test is true of a field, if the store has a comparison for it. -/
def Test.truth? (truth : Comparison → Bool) : Test → Option Bool
  | .compare comparator value => some (truth (.compare comparator (.ofJson value)))
  | .isIn candidates => some (truth (.within (candidates.map .ofJson)))
  | .notIn candidates => some (!truth (.within (candidates.map .ofJson)))
  | .like pattern =>
      match Pattern.classify pattern with
      | .exact text => some (truth (.compare .eq (.string text)))
      | .startsWith text => some (truth (.beginsWith (.string text)))
      | .contains text => some (truth (.contains (.string text)))
      | .other _ => none
  | .isNull => some (!truth .present)
  | .isNotNull => some (truth .present)

/-- Whether a predicate is true, if its test can be made by the store. -/
def Predicate.truth? (truth : Assignment) (parameters : Parameters) (predicate : Predicate) :
    Option Bool :=
  match predicate.test parameters with
  | .ok test => test.truth? (truth predicate.field)
  | .error _ => none

/-- Whether a query's condition is true, if all its predicates are true or false. No condition is
always true. -/
def Query.truth? (truth : Assignment) (query : Query) : Option Bool :=
  match query.condition with
  | none => some true
  | some condition => Formula.holds? (Predicate.truth? truth query.parameters) condition

/-- Whether the key condition and the filter of a statement are both true, if both can be read. -/
def Statement.truth? (truth : Assignment) (statement : Statement) : Option Bool := do
  let tables : Tables := ⟨statement.names, statement.values⟩
  let key ← value? tables truth statement.keyCondition
  let filter ← value? tables truth statement.filter
  return key && filter

namespace Predicate

variable {parameters : Parameters} {predicate : Predicate} {test : StoreTest}

theorem candidates_ne_nil {candidates : List Json}
    (found : predicate.candidates parameters = .ok candidates) : candidates ≠ [] := by
  simp only [Predicate.candidates, Fallible.bind_eq_ok_iff] at found
  obtain ⟨value, _, found⟩ := found
  split at found
  · cases found
  · next nonempty =>
      rw [Fallible.pure_eq_ok_iff] at found
      subst found
      exact fun empty => nonempty empty

theorem storeTest_ok (lowered : predicate.storeTest parameters = .ok test) :
    ∃ asked, predicate.test parameters = .ok asked ∧
      Check.ofTest? asked = some test.check ∧ test.field = predicate.field := by
  simp only [Predicate.storeTest, Fallible.bind_eq_ok_iff] at lowered
  obtain ⟨asked, tested, lowered⟩ := lowered
  split at lowered
  · next check found =>
      rw [Fallible.pure_eq_ok_iff] at lowered
      subst lowered
      exact ⟨asked, tested, found, rfl⟩
  · cases lowered

theorem truth?_eq_map_holds (truth : Comparison → Bool) (asked : Test) :
    asked.truth? truth = (Check.ofTest? asked).map (Check.holds truth) := by
  cases asked with
  | like pattern =>
      simp only [Test.truth?, Check.ofTest?]
      cases Pattern.classify pattern <;> simp [Check.holds, Attribute.ofJson]
  | _ =>
      rfl

/-- A predicate whose test the store can make is true exactly if that test is. -/
theorem truth?_of_storeTest (truth : Assignment)
    (lowered : predicate.storeTest parameters = .ok test) :
    predicate.truth? truth parameters = some (test.holds truth) := by
  obtain ⟨asked, tested, found, sameField⟩ := storeTest_ok lowered
  simp [Predicate.truth?, tested, truth?_eq_map_holds, found, StoreTest.holds, sameField]

theorem proper_of_storeTest (lowered : predicate.storeTest parameters = .ok test) :
    test.check.Proper := by
  obtain ⟨asked, tested, found, _⟩ := storeTest_ok lowered
  obtain ⟨field, parameter, check⟩ := test
  unfold Predicate.test at tested
  split at tested
  all_goals try
    obtain ⟨candidates, resolved, rfl⟩ := Fallible.map_eq_ok_iff.mp tested
  · cases found
    trivial
  · cases found
    exact candidates_ne_nil resolved
  · cases found
    exact candidates_ne_nil resolved
  · simp only [Check.ofTest?] at found
    split at found <;> cases found <;> trivial
  · cases tested
    cases found
    trivial
  · cases tested
    cases found
    trivial

end Predicate

namespace StorePlan

variable {query : Query} {schema : Schema} {consistentRead : Bool} {plan : StorePlan}

def isIndexed (key : Key) (parts : List Part) : Bool :=
  parts.any fun part => part.claim == some key.partition

/-- The parts with the claims that remain: without the partition key there are none. -/
def kept (key : Key) (parts : List Part) : List Part :=
  if isIndexed key parts then parts else parts.map Part.demote

/-- What a plan is made of. -/
theorem compile_ok (compiled : compile query schema consistentRead = .ok plan) :
    ∃ table key claimed forward,
      query.table = .ok table ∧
      schema.keyOf query.storeIndex = .ok key ∧
      parts key query.parameters [] ((query.condition.map Chain.runs).getD []) = .ok claimed ∧
      (query.storeIndex.isSome → isIndexed key claimed = true) ∧
      direction query.order key (isIndexed key claimed) = .ok forward ∧
      let keyFields := NameSet.insertAll schema.primary.fields key.fields
      let worded := (wording (kept key claimed) (projected query.columns keyFields)).run Names.empty
      plan =
        { method := if isIndexed key claimed then .indexedQuery else .fullScan
          statement :=
            { table
              index := query.storeIndex
              keyCondition := worded.1.keyCondition
              filter := worded.1.filter
              projection := worded.1.projection
              names := worded.2.fields
              values := worded.2.values
              forward
              limit := limit? query.limit
              consistentRead := some consistentRead }
          keyFields } := by
  simp only [compile, Fallible.bind_eq_ok_iff] at compiled
  obtain ⟨table, tableFound, key, keyFound, claimed, split, compiled⟩ := compiled
  refine ⟨table, key, claimed, ?_⟩
  split at compiled
  · simp only [throw, throwThe, MonadExceptOf.throw, bind, Except.bind] at compiled
    cases compiled
  · next reachable =>
      rw [Fallible.bind_eq_ok_iff] at compiled
      obtain ⟨forward, directed, assembled⟩ := compiled
      refine ⟨forward, tableFound, keyFound, split, ?_, directed,
        (Fallible.pure_eq_ok_iff.mp assembled).symm⟩
      intro indexed
      obtain ⟨index, found⟩ := Option.isSome_iff_exists.mp indexed
      by_contra notIndexed
      exact reachable index (by simpa [found, isIndexed] using notIndexed)

/-- The sources of the clauses in the key condition and of those in the filter. -/
theorem exists_sources
    {α : Type} {Related : α → Option String × Formula StoreClause → Prop} {sources : List α}
    {clauses : List (Option String × Formula StoreClause)}
    (related : List.Forall₂ Related sources clauses) :
    ∃ keySources filterSources,
      List.Forall₂ Related keySources (clauses.filter fun clause => clause.1.isSome) ∧
      List.Forall₂ Related filterSources (clauses.filter fun clause => clause.1.isNone) ∧
      (keySources ++ filterSources).Perm sources := by
  obtain ⟨keySources, filterSources, keyRelated, filterRelated, together⟩ :=
    DocQuery.Related.exists_partition related fun clause => clause.1.isSome
  have unclaimed : (fun clause : Option String × Formula StoreClause => !clause.1.isSome) =
      fun clause => clause.1.isNone := by
    funext clause
    cases clause.1 <;> rfl
  rw [unclaimed] at filterRelated
  exact ⟨keySources, filterSources, keyRelated, filterRelated, together⟩

/-- The key condition and the filter that clauses make hold together when all their sources do. -/
theorem value?_wording
    {truth : Assignment} {tables : Tables} {value : Predicate → Bool}
    {sources : List Condition} {wording : Wording}
    (related : List.Forall₂ (fun source clause => Chain.Corresponds
      (Tree.Corresponds fun predicate clause =>
        Denotes tables truth .factor (value predicate) clause.text) source clause.2)
      sources wording.clauses) :
    ∃ key filter, value? tables truth wording.keyCondition = some key ∧
      value? tables truth wording.filter = some filter ∧
      (key && filter) = sources.all fun source => source.holds value := by
  obtain ⟨keySources, filterSources, keyRelated, filterRelated, together⟩ :=
    exists_sources related
  refine ⟨_, _, StoreExpression.value?_conjunction? (List.forall₂_map_right_iff.mpr keyRelated),
    StoreExpression.value?_conjunction? (List.forall₂_map_right_iff.mpr filterRelated), ?_⟩
  rw [← together.all_eq, List.all_append]

/-- Claims do not matter for what a part was lowered from. -/
theorem loweredFrom_kept
    {parameters : Parameters} {sources : List Condition} {parts : List Part} (key : Key)
    (lowered : List.Forall₂ (LoweredFrom parameters) sources parts) :
    List.Forall₂ (LoweredFrom parameters) sources (kept key parts) := by
  unfold kept
  split
  · exact lowered
  · exact List.forall₂_map_right_iff.mpr lowered

/-- The clauses that the kept parts are worded as name the tests of the predicates that the parts
come from. -/
theorem wording_lowered
    {parameters : Parameters} {sources : List Condition} {claimed : List Part}
    (lowered : List.Forall₂ (LoweredFrom parameters) sources claimed)
    (key : Key) (columns : List String) :
    let worded := (wording (kept key claimed) columns).run Names.empty
    List.Forall₂ (fun source clause => Chain.Corresponds
      (Tree.Corresponds fun predicate clause =>
        ∃ test, predicate.storeTest parameters = .ok test ∧
          Names.NamesTest worded.2.tables test clause) source clause.2)
      sources worded.1.clauses := by
  intro worded
  have clauses := (wording_named (kept key claimed) columns).2.clauses
  refine (Related.trans (loweredFrom_kept key lowered) clauses).imp ?_
  rintro source ⟨claim, formula⟩ ⟨part, fromSource, _, partNamed⟩
  refine (fromSource.trans partNamed).imp ?_
  rintro node - nodeClauses ⟨nodeTests, nodeLowered, nodeNamed⟩
  exact nodeLowered.trans nodeNamed

/-- The clauses that the kept parts are worded as say what the sources of the parts say. -/
theorem wording_denotes
    {parameters : Parameters} {sources : List Condition} {claimed : List Part}
    (lowered : List.Forall₂ (LoweredFrom parameters) sources claimed)
    (truth : Assignment) (key : Key) (columns : List String) :
    let worded := (wording (kept key claimed) columns).run Names.empty
    List.Forall₂ (fun source clause => Chain.Corresponds
      (Tree.Corresponds fun predicate clause =>
        Denotes worded.2.tables truth .factor
          ((predicate.truth? truth parameters).getD false) clause.text) source clause.2)
      sources worded.1.clauses := by
  intro worded
  refine (wording_lowered lowered key columns).imp fun source clause formulaNamed => ?_
  refine formulaNamed.imp fun node _ nodeClauses nodeNamed => ?_
  refine nodeNamed.imp ?_
  rintro predicate clause ⟨test, predicateLowered, named⟩
  rw [Predicate.truth?_of_storeTest truth predicateLowered, Option.getD_some]
  exact StoreClause.denotes_text named.words (Predicate.proper_of_storeTest predicateLowered)

theorem storeTest_of_lowered
    {parameters : Parameters} {sources : List Condition} {claimed : List Part}
    (lowered : List.Forall₂ (LoweredFrom parameters) sources claimed)
    {predicate : Predicate} (member : predicate ∈ sources.flatMap Formula.atoms) :
    ∃ test, predicate.storeTest parameters = .ok test := by
  obtain ⟨source, sourceMember, inSource⟩ := List.mem_flatMap.mp member
  obtain ⟨part, _, fromSource⟩ := Related.exists_of_mem lowered sourceMember
  obtain ⟨test, _, predicateLowered⟩ :=
    Related.exists_of_mem (Formula.forall₂_atoms fromSource) inSource
  exact ⟨test, predicateLowered⟩

/-- Compiling keeps the meaning of the condition: whichever comparisons are true of which fields,
the key condition and the filter can be read, and they hold together exactly if the condition of
the query does. -/
theorem compile_preserves_truth
    (compiled : compile query schema consistentRead = .ok plan) (truth : Assignment) :
    ∃ value, plan.statement.truth? truth = some value ∧ query.truth? truth = some value := by
  obtain ⟨table, key, claimed, forward, _, _, split, _, _, rfl⟩ := compile_ok compiled
  have nonempty : ∀ run ∈ (query.condition.map Chain.runs).getD [], run ≠ [] := by
    intro run member
    cases conditionFound : query.condition with
    | none =>
        simp [conditionFound] at member
    | some condition =>
        simp only [conditionFound, Option.map_some, Option.getD_some] at member
        exact Chain.ne_nil_of_mem_runs member
  obtain ⟨sources, lowered, predicates, together⟩ := parts_split nonempty split
  let value := fun predicate : Predicate =>
    (predicate.truth? truth query.parameters).getD false
  refine ⟨sources.all fun source => source.holds value, ?_, ?_⟩
  · obtain ⟨keyValue, filterValue, keyRead, filterRead, both⟩ :=
      value?_wording (wording_denotes lowered truth key
        (projected query.columns (NameSet.insertAll schema.primary.fields key.fields)))
    rw [← both]
    simp only [Names.tables] at keyRead filterRead
    simp [Statement.truth?, keyRead, filterRead]
  · rw [together]
    cases conditionFound : query.condition with
    | none =>
        simp [Query.truth?, conditionFound]
    | some condition =>
        simp only [conditionFound, Option.map_some, Option.getD_some] at predicates ⊢
        simp only [Query.truth?, conditionFound]
        rw [Formula.holds?_eq_some, Formula.holds_eq_all_runs]
        · rfl
        · intro predicate member
          rw [Formula.atoms_eq_flatMap_items, ← Chain.flatten_runs, ← predicates] at member
          obtain ⟨test, predicateLowered⟩ := storeTest_of_lowered lowered member
          exact ⟨_, Predicate.truth?_of_storeTest truth predicateLowered⟩

/-- A query by the partition key `id`, with groups in each other and with two fields, `a-b` and
`a+b`, whose bare aliases are the same. -/
def nestedQuery : Query where
  sources := ["orders"]
  index := none
  condition := some (.link (.leaf ⟨"id", .compare .eq, some (.parameter "id")⟩) .and
    (.link
      (.group (.link (.leaf ⟨"a-b", .compare .gt, some (.literal (.string "x"))⟩) .or
        (.single (.group (.link (.leaf ⟨"a+b", .notIn, some (.parameter "id")⟩) .and
          (.single (.leaf ⟨"c.d", .isNull, none⟩)))))))
      .or
      (.single (.leaf ⟨"c", .like, some (.literal (.string "%x%"))⟩))))
  parameters := [("id", .bool true)]
  columns := []
  order := []
  limit := 0
  skip := 0

theorem compile_preserves_truth_nestedQuery :
    ∃ plan, compile nestedQuery ⟨[], ⟨"id", none⟩, []⟩ false = .ok plan ∧
      (plan.statement.keyCondition, plan.statement.filter) =
        (some "#id = :id",
          some ("(#a_b > :lit1 OR (NOT (#a_b_1 IN (:id_0)) AND attribute_not_exists(#c.#d)))" ++
            " OR contains(#c, :lit2)")) ∧
      ∀ truth, ∃ value,
        plan.statement.truth? truth = some value ∧ nestedQuery.truth? truth = some value := by
  have texts : (compile nestedQuery ⟨[], ⟨"id", none⟩, []⟩ false).map
      (fun plan => (plan.statement.keyCondition, plan.statement.filter)) =
        .ok (some "#id = :id",
          some ("(#a_b > :lit1 OR (NOT (#a_b_1 IN (:id_0)) AND attribute_not_exists(#c.#d)))" ++
            " OR contains(#c, :lit2)")) := by
    decide +kernel
  obtain ⟨plan, compiled, spelled⟩ := Fallible.map_eq_ok_iff.mp texts
  exact ⟨plan, compiled, spelled, compile_preserves_truth compiled⟩

end StorePlan

end DocQuery
