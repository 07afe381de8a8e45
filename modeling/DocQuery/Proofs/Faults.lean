import DocQuery.Proofs.Acceptance

/-!
# Why a query does not compile

A predicate is at fault if it takes a value that mentions a name nothing is bound to, or if it says
something that cannot be tested. Both compilers look up every value of the condition, whichever
groups they take apart or give up, so that no name without a value is passed over. They fail with
such a name only if it is mentioned.
-/

namespace DocQuery

open Fallible (FailsOnly)

namespace Operand

/-- The operand is the parameter of this name, or a list with the name somewhere in it. -/
inductive Mentions (name : String) : Operand → Prop
  | parameter :
      Mentions name (.parameter name)
  | list {item : Operand} {items : List Operand} :
      item ∈ items →
      Mentions name item →
      Mentions name (.list items)

/-- The operand mentions the name, and nothing is bound to it. -/
def Misses (parameters : Parameters) (operand : Operand) (name : String) : Prop :=
  operand.Mentions name ∧ parameters.get? name = none

/-- The fault is a name that the operand misses. -/
def Unbound (parameters : Parameters) (operand : Operand) (fault : QueryFault) : Prop :=
  ∃ name, operand.Misses parameters name ∧ fault = .unboundParameter name

variable {parameters : Parameters}

theorem resolveItems_ok {items : List Operand} {values : List Json}
    (resolved : resolveItems parameters items = .ok values) :
    List.Forall₂ (fun item value => item.resolve parameters = .ok value) items values := by
  induction items generalizing values with
  | nil =>
      simp only [resolveItems, Except.ok.injEq] at resolved
      subst resolved
      exact .nil
  | cons item rest inductionHypothesis =>
      simp only [resolveItems, Fallible.bind_eq_ok_iff, Fallible.pure_eq_ok_iff] at resolved
      obtain ⟨value, itemResolved, others, restResolved, rfl⟩ := resolved
      exact .cons itemResolved (inductionHypothesis restResolved)

/-- What has a value misses no name. -/
theorem not_misses_of_resolve {operand : Operand} {value : Json}
    (resolved : operand.resolve parameters = .ok value) (name : String) :
    ¬ operand.Misses parameters name := by
  rintro ⟨mentions, unbound⟩
  induction mentions generalizing value with
  | parameter =>
      rw [resolve, unbound] at resolved
      cases resolved
  | list member _ inductionHypothesis =>
      rw [resolve] at resolved
      obtain ⟨values, itemsResolved, _⟩ := Fallible.map_eq_ok_iff.mp resolved
      obtain ⟨_, _, itemResolved⟩ := Related.exists_of_mem (resolveItems_ok itemsResolved) member
      exact inductionHypothesis itemResolved

theorem Unbound.list {item : Operand} {items : List Operand} {fault : QueryFault}
    (unbound : item.Unbound parameters fault) (member : item ∈ items) :
    (Operand.list items).Unbound parameters fault := by
  obtain ⟨name, ⟨mentions, missing⟩, same⟩ := unbound
  exact ⟨name, ⟨.list member mentions, missing⟩, same⟩

mutual

/-- The value of an operand cannot be told only if the operand misses a name. -/
theorem resolve_failsOnly (parameters : Parameters) : ∀ operand : Operand,
    FailsOnly (operand.Unbound parameters) (operand.resolve parameters)
  | .parameter name => by
      rw [resolve]
      split
      · exact .of_ok _
      · next missing =>
          exact .of_error ⟨name, ⟨.parameter, missing⟩, rfl⟩
  | .literal value => by
      rw [resolve]
      exact .of_ok value
  | .list items => by
      rw [resolve]
      refine ((resolveItems_failsOnly parameters items).map _).imp ?_
      rintro fault ⟨item, member, unbound⟩
      exact unbound.list member

theorem resolveItems_failsOnly (parameters : Parameters) : ∀ items : List Operand,
    FailsOnly (fun fault => ∃ item ∈ items, item.Unbound parameters fault)
      (resolveItems parameters items)
  | [] => by
      rw [resolveItems]
      exact .of_ok _
  | item :: rest => by
      rw [resolveItems]
      refine ((resolve_failsOnly parameters item).imp ?_).bind fun _ _ => ?_
      · intro fault unbound
        exact ⟨item, List.mem_cons_self, unbound⟩
      · refine ((resolveItems_failsOnly parameters rest).imp ?_).bind fun _ _ => .of_ok _
        rintro fault ⟨other, member, unbound⟩
        exact ⟨other, List.mem_cons_of_mem item member, unbound⟩

end

end Operand

namespace Predicate

/-- The predicate takes a value that mentions the name, and nothing is bound to it. -/
def Misses (parameters : Parameters) (predicate : Predicate) (name : String) : Prop :=
  predicate.operator.takesValue = true ∧
    ∃ operand, predicate.operand = some operand ∧ operand.Misses parameters name

/-- What can be wrong with a predicate. -/
inductive Fault (parameters : Parameters) (predicate : Predicate) : QueryFault → Prop
  | unbound {name : String} :
      predicate.Misses parameters name →
      Fault parameters predicate (.unboundParameter name)
  | unsupported (reason : Unsupported) :
      Fault parameters predicate (predicate.unsupported reason)

variable {parameters : Parameters} {predicate : Predicate}

theorem not_misses_of_value {value : Json} (resolved : predicate.value parameters = .ok value)
    (name : String) : ¬ predicate.Misses parameters name := by
  rintro ⟨_, operand, found, misses⟩
  rw [Predicate.value, found] at resolved
  exact Operand.not_misses_of_resolve resolved name misses

theorem exists_value_of_scalar {scalar : Json}
    (resolved : predicate.scalar parameters = .ok scalar) :
    ∃ value, predicate.value parameters = .ok value := by
  obtain ⟨value, found, _⟩ := Fallible.bind_eq_ok_iff.mp resolved
  exact ⟨value, found⟩

/-- What can be tested misses no name: every operator that takes a value looks it up. -/
theorem not_misses_of_test {asked : Test} (tested : predicate.test parameters = .ok asked)
    (name : String) : ¬ predicate.Misses parameters name := by
  have looksUp : predicate.operator.takesValue = true →
      ∃ value, predicate.value parameters = .ok value := by
    intro takes
    unfold Predicate.test at tested
    split at tested
    · obtain ⟨scalar, resolved, _⟩ := Fallible.map_eq_ok_iff.mp tested
      exact exists_value_of_scalar resolved
    case h_4 =>
      obtain ⟨pattern, resolved, _⟩ := Fallible.map_eq_ok_iff.mp tested
      obtain ⟨scalar, resolved, _⟩ := Fallible.bind_eq_ok_iff.mp resolved
      exact exists_value_of_scalar resolved
    case h_5 | h_6 =>
      simp_all [Operator.takesValue]
    all_goals
      obtain ⟨candidates, resolved, _⟩ := Fallible.map_eq_ok_iff.mp tested
      obtain ⟨value, found, _⟩ := Fallible.bind_eq_ok_iff.mp resolved
      exact ⟨value, found⟩
  intro misses
  obtain ⟨value, resolved⟩ := looksUp misses.1
  exact not_misses_of_value resolved name misses

section Fails

variable (takes : predicate.operator.takesValue = true)
include takes

theorem value_failsOnly :
    FailsOnly (predicate.Fault parameters) (predicate.value parameters) := by
  unfold Predicate.value
  split
  · next operand found =>
      refine (operand.resolve_failsOnly parameters).imp ?_
      rintro fault ⟨name, misses, rfl⟩
      exact .unbound ⟨takes, operand, found, misses⟩
  · exact .of_error (.unsupported _)

theorem scalar_failsOnly :
    FailsOnly (predicate.Fault parameters) (predicate.scalar parameters) := by
  refine (value_failsOnly takes).bind fun value _ => ?_
  split
  · exact .of_error (.unsupported _)
  · exact .of_error (.unsupported _)
  · exact .of_ok _

theorem pattern_failsOnly :
    FailsOnly (predicate.Fault parameters) (predicate.pattern parameters) := by
  refine (scalar_failsOnly takes).bind fun value _ => ?_
  split
  · exact .of_ok _
  · exact .of_error (.unsupported _)

theorem candidates_failsOnly :
    FailsOnly (predicate.Fault parameters) (predicate.candidates parameters) := by
  refine (value_failsOnly takes).bind fun value _ => ?_
  split
  · exact .of_error (.unsupported _)
  · exact .of_ok _

end Fails

theorem test_failsOnly (parameters : Parameters) (predicate : Predicate) :
    FailsOnly (predicate.Fault parameters) (predicate.test parameters) := by
  unfold Predicate.test
  split
  case h_1 operator => exact (scalar_failsOnly (by simp [operator, Operator.takesValue])).map _
  case h_2 operator => exact (candidates_failsOnly (by simp [operator, Operator.takesValue])).map _
  case h_3 operator => exact (candidates_failsOnly (by simp [operator, Operator.takesValue])).map _
  case h_4 operator => exact (pattern_failsOnly (by simp [operator, Operator.takesValue])).map _
  all_goals exact .of_ok _

theorem storeTest_failsOnly (parameters : Parameters) (predicate : Predicate) :
    FailsOnly (predicate.Fault parameters) (predicate.storeTest parameters) := by
  refine (test_failsOnly parameters predicate).bind fun asked _ => ?_
  split
  · exact .of_ok _
  · exact .of_error (.unsupported _)

end Predicate

/-- A predicate of the condition is at fault. -/
def Query.PredicateFault (query : Query) (fault : QueryFault) : Prop :=
  ∃ predicate ∈ query.predicates, predicate.Fault query.parameters fault

namespace StorePlan

/-- What can keep a query from compiling for a store. -/
inductive Fault (query : Query) (schema : Schema) : QueryFault → Prop
  | missingSource :
      query.sources = [] →
      Fault query schema .missingSource
  | unknownIndex {index : String} :
      query.storeIndex = some index →
      schema.indexes.get? index = none →
      Fault query schema (.unknownIndex index)
  | predicate {fault : QueryFault} :
      query.PredicateFault fault →
      Fault query schema fault
  | missingIndexKeyCondition {index : String} :
      query.storeIndex = some index →
      Fault query schema (.missingIndexKeyCondition index)
  | unsupportedOrder (cause : OrderFault) :
      query.order ≠ [] →
      Fault query schema (.unsupportedOrder cause)

section Compile

variable (query : Query) (schema : Schema)

theorem table_failsOnly : FailsOnly (Fault query schema) query.table := by
  unfold Query.table
  split
  · exact .of_ok _
  · next noFirst =>
      exact .of_error (.missingSource (List.head?_eq_none_iff.mp noFirst))

theorem keyOf_failsOnly : FailsOnly (Fault query schema) (schema.keyOf query.storeIndex) := by
  unfold Schema.keyOf
  split
  · exact .of_ok _
  · next index chosen =>
      split
      · exact .of_ok _
      · next unknown =>
          exact .of_error (.unknownIndex chosen unknown)

theorem direction_failsOnly (key : Key) (indexed : Bool) :
    FailsOnly (Fault query schema) (direction query.order key indexed) := by
  unfold direction
  split
  · exact .of_ok _
  · next ordered =>
      have named : query.order ≠ [] := by
        simp [ordered]
      split
      · exact .of_error (.unsupportedOrder _ named)
      · split
        · exact .of_error (.unsupportedOrder _ named)
        · split
          · exact .of_ok _
          · exact .of_ok _

theorem compile_failsOnly (consistentRead : Bool) :
    FailsOnly (Fault query schema) (compile query schema consistentRead) := by
  unfold compile
  refine (table_failsOnly query schema).bind fun table _ => ?_
  refine (keyOf_failsOnly query schema).bind fun key _ => ?_
  refine ((conditionParts_failsOnly key query).imp ?_).bind fun claimed _ => ?_
  · rintro fault ⟨predicate, member, failed⟩
    exact .predicate ⟨predicate, member, predicate.storeTest_failsOnly _ fault failed⟩
  dsimp only
  split
  · next index chosen =>
      exact .of_error (.missingIndexKeyCondition (congrArg Prod.fst chosen))
  · exact (direction_failsOnly query schema key _).bind fun forward _ => .of_ok _

end Compile

end StorePlan

namespace SearchPlan

/-- What can keep a query from compiling for a search engine. -/
inductive Fault (query : Query) : QueryFault → Prop
  | missingSource :
      query.sources = [] →
      Fault query .missingSource
  | predicate {fault : QueryFault} :
      query.PredicateFault fault →
      Fault query fault

theorem term_failsOnly (parameters : Parameters) (condition : Condition) :
    FailsOnly (fun fault => ∃ predicate ∈ Formula.atoms condition,
      predicate.Fault parameters fault) (term parameters condition) := by
  refine FailsOnly.bind ?_ fun clauses _ => .of_ok _
  refine Formula.traverse_failsOnly fun predicate member => ?_
  refine ((predicate.test_failsOnly parameters).map _).imp fun fault cause => ?_
  exact ⟨predicate, member, cause⟩

theorem compile_failsOnly (query : Query) : FailsOnly (Fault query) (compile query) := by
  unfold compile
  dsimp only
  by_cases nameless : query.sources.isEmpty = true
  · rw [if_pos nameless]
    exact .of_error (.missingSource (List.isEmpty_iff.mp nameless))
  · rw [if_neg nameless]
    split
    · next condition found =>
        refine FailsOnly.bind ?_ fun term _ => .of_ok _
        refine ((term_failsOnly query.parameters condition).map some).imp fun fault atFault => ?_
        exact .predicate (by simpa [Query.PredicateFault, Query.predicates, found] using atFault)
    · exact .of_ok _

end SearchPlan

namespace Query

/-- A name that a value in the condition misses keeps the query from compiling for either kind of
store, and no other name is given as the reason. -/
theorem compiles_bound (query : Query) (schema : Schema) (consistentRead : Bool) (name : String) :
    ((∃ predicate ∈ query.predicates, predicate.Misses query.parameters name) →
      (∀ plan, StorePlan.compile query schema consistentRead ≠ .ok plan) ∧
        ∀ search, SearchPlan.compile query ≠ .ok search) ∧
    (StorePlan.compile query schema consistentRead = .error (.unboundParameter name) ∨
        SearchPlan.compile query = .error (.unboundParameter name) →
      ∃ predicate ∈ query.predicates, predicate.Misses query.parameters name) := by
  constructor
  · rintro ⟨predicate, member, misses⟩
    have untestable (asked : Test) : predicate.test query.parameters ≠ .ok asked :=
      fun tested => Predicate.not_misses_of_test tested name misses
    constructor
    · intro plan compiled
      obtain ⟨_, lowered⟩ := StorePlan.exists_storeTest_of_compile ⟨plan, compiled⟩
      obtain ⟨⟨asked, tested⟩, _⟩ :=
        Predicate.exists_storeTest_iff.mp (lowered predicate member)
      exact untestable asked tested
    · intro search compiled
      obtain ⟨_, tests⟩ := SearchPlan.exists_compile_iff.mp ⟨search, compiled⟩
      obtain ⟨asked, tested⟩ := tests predicate member
      exact untestable asked tested
  · have missing (atFault : query.PredicateFault (.unboundParameter name)) :
        ∃ predicate ∈ query.predicates, predicate.Misses query.parameters name := by
      obtain ⟨predicate, member, cause⟩ := atFault
      cases cause with
      | unbound misses =>
          exact ⟨predicate, member, misses⟩
    rintro (failed | failed)
    · cases StorePlan.compile_failsOnly query schema consistentRead _ failed with
      | predicate atFault =>
          exact missing atFault
    · cases SearchPlan.compile_failsOnly query _ failed with
      | predicate atFault =>
          exact missing atFault

/-- A query by the key `id` that misses the name `gone`, in a list within a list within a group.
Nothing is bound to `other` either, but its operator takes no value. -/
def gappyQuery : Query where
  sources := ["orders"]
  index := none
  condition := some (.link (.leaf ⟨"id", .compare .eq, some (.parameter "me")⟩) .and
    (.single (.group (.link (.leaf ⟨"a", .isNull, some (.parameter "other")⟩) .or
      (.single (.group (.single (.leaf ⟨"b", .notIn,
        some (.list [.parameter "me", .list [.literal .null, .parameter "gone"]])⟩))))))))
  parameters := [("me", .bool true)]
  columns := []
  order := []
  limit := 0
  skip := 0

theorem compiles_bound_gappyQuery :
    StorePlan.compile gappyQuery ⟨[], ⟨"id", none⟩, []⟩ false =
        .error (.unboundParameter "gone") ∧
      (∃ predicate ∈ gappyQuery.predicates, predicate.Misses gappyQuery.parameters "gone") ∧
      ∀ search, SearchPlan.compile gappyQuery ≠ .ok search := by
  have failed : StorePlan.compile gappyQuery ⟨[], ⟨"id", none⟩, []⟩ false =
      .error (.unboundParameter "gone") := by
    decide +kernel
  obtain ⟨notCompiled, blamed⟩ := compiles_bound gappyQuery ⟨[], ⟨"id", none⟩, []⟩ false "gone"
  have misses := blamed (.inl failed)
  exact ⟨failed, misses, (notCompiled misses).2⟩

end Query

end DocQuery
