import DocQuery.Proofs.Condition.Pattern
import DocQuery.Proofs.Store.Plan
import DocQuery.Search.Plan

/-!
# Which queries compile

A search engine takes every condition whose predicates can be tested, and a key-value store takes
those of them whose patterns are basic. Both statements are about the predicates one by one: claims
of keys are made and given up without an error of their own, so that neither the groups and joins of
a condition nor the keys of a table decide whether it compiles.
-/

namespace DocQuery

open Fallible (FailsOnly)

/-- The predicates of a query's condition, from left to right. -/
def Query.predicates (query : Query) : List Predicate :=
  (query.condition.map Formula.atoms).getD []

/-- The query names one source at most, and neither an index nor an order. -/
structure Query.IsPlain (query : Query) : Prop where
  sources : query.sources.length ≤ 1
  index : query.index = none
  order : query.order = []

/-- The queries ask for the same predicates, however these are grouped, joined and repeated. -/
structure Query.Regroups (query other : Query) : Prop where
  sources : query.sources = other.sources
  parameters : query.parameters = other.parameters
  predicates : ∀ predicate, predicate ∈ query.predicates ↔ predicate ∈ other.predicates

namespace Predicate

variable {parameters : Parameters} {predicate : Predicate}

/-- The pattern of the predicate is basic, if it has one. -/
def HasBasicPattern (parameters : Parameters) (predicate : Predicate) : Prop :=
  ∀ pattern, predicate.operator = .like → predicate.pattern parameters = .ok pattern →
    Pattern.IsBasic pattern.toList

theorem test_eq_like_iff {pattern : String} :
    predicate.test parameters = .ok (.like pattern) ↔
      predicate.operator = .like ∧ predicate.pattern parameters = .ok pattern := by
  unfold test
  split <;> simp [Fallible.map_eq_ok_iff, *]

/-- The store has a check for every test but that of a pattern which is not basic. -/
theorem exists_check_iff {asked : Test} :
    (∃ check, Check.ofTest? asked = some check) ↔
      ∀ pattern, asked = .like pattern → Pattern.IsBasic pattern.toList := by
  cases asked with
  | like pattern =>
      simp only [Check.ofTest?, Test.like.injEq, forall_eq', Pattern.isBasic_iff]
      cases Pattern.classify pattern <;> simp
  | _ =>
      simp [Check.ofTest?]

/-- A predicate can be lowered for the store if it can be tested and its pattern is basic. -/
theorem exists_storeTest_iff :
    (∃ test, predicate.storeTest parameters = .ok test) ↔
      (∃ asked, predicate.test parameters = .ok asked) ∧
        predicate.HasBasicPattern parameters := by
  constructor
  · rintro ⟨test, lowered⟩
    obtain ⟨asked, tested, found, _⟩ := storeTest_ok lowered
    refine ⟨⟨asked, tested⟩, fun pattern operator resolved => ?_⟩
    have sameTest := tested.symm.trans (test_eq_like_iff.mpr ⟨operator, resolved⟩)
    exact exists_check_iff.mp ⟨_, found⟩ pattern (Except.ok.inj sameTest)
  · rintro ⟨⟨asked, tested⟩, basic⟩
    have hasCheck : ∃ check, Check.ofTest? asked = some check := by
      refine exists_check_iff.mpr fun pattern same => ?_
      obtain ⟨operator, resolved⟩ := test_eq_like_iff.mp (same ▸ tested)
      exact basic pattern operator resolved
    obtain ⟨check, found⟩ := hasCheck
    refine ⟨⟨predicate.field, predicate.parameter?, check⟩, ?_⟩
    simp [storeTest, Fallible.bind_eq_ok_iff, tested, found, Fallible.pure_eq_ok_iff]

theorem storeTest_of_test_error {fault : QueryFault}
    (untested : predicate.test parameters = .error fault) :
    predicate.storeTest parameters = .error fault := by
  rw [storeTest, untested]
  rfl

/-- A predicate of the list cannot be lowered, and this is why. -/
def Unlowerable (parameters : Parameters) (predicates : List Predicate) (fault : QueryFault) :
    Prop :=
  ∃ predicate ∈ predicates, predicate.storeTest parameters = .error fault

theorem Unlowerable.mono {predicates others : List Predicate} (within : predicates ⊆ others)
    (fault : QueryFault) (unlowerable : Unlowerable parameters predicates fault) :
    Unlowerable parameters others fault := by
  obtain ⟨predicate, member, failed⟩ := unlowerable
  exact ⟨predicate, within member, failed⟩

theorem not_unlowerable {predicates : List Predicate}
    (lowered : ∀ predicate ∈ predicates, ∃ test, predicate.storeTest parameters = .ok test)
    (fault : QueryFault) : ¬ Unlowerable parameters predicates fault := by
  rintro ⟨predicate, member, failed⟩
  obtain ⟨test, predicateLowered⟩ := lowered predicate member
  cases failed.symm.trans predicateLowered

end Predicate

open Predicate (Unlowerable)

namespace StorePlan

variable (key : Key) {parameters : Parameters} (taken : List String)

/-- Whether a predicate claims a key can be told if it can be lowered. The only value that is
looked up for it is a pattern, and the test of the predicate looks it up too. -/
theorem claim?_failsOnly (predicate : Predicate) :
    FailsOnly (Unlowerable parameters [predicate])
      (claim? key parameters taken predicate) := by
  refine FailsOnly.bind ?_ fun eligible _ => .of_ok _
  unfold isEligible
  split
  · exact .of_ok _
  · split
    · split
      · exact .of_ok _
      · next operator =>
          refine FailsOnly.map (fun fault failed => ?_) isRange
          refine ⟨predicate, List.mem_cons_self, Predicate.storeTest_of_test_error ?_⟩
          simp only [Predicate.test, operator, failed]
          rfl
      · exact .of_ok _
    · exact .of_ok _

theorem storeTest_failsOnly {predicate : Predicate} {predicates : List Predicate}
    (member : predicate ∈ predicates) :
    FailsOnly (Unlowerable parameters predicates) (predicate.storeTest parameters) :=
  fun _ failed => ⟨predicate, member, failed⟩

theorem claimAll?_failsOnly (predicates : List Predicate) :
    FailsOnly (Unlowerable parameters predicates)
      (claimAll? key parameters taken predicates) := by
  induction predicates generalizing taken with
  | nil =>
      exact .of_ok _
  | cons predicate rest inductionHypothesis =>
      rw [claimAll?]
      refine ((claim?_failsOnly key taken predicate).imp ?_).bind fun claim _ => ?_
      · exact Unlowerable.mono (by simp)
      · cases claim with
        | none =>
            exact .of_ok _
        | some field =>
            refine ((inductionHypothesis (field :: taken)).imp ?_).bind fun _ _ => .of_ok _
            exact Unlowerable.mono (List.subset_cons_self predicate rest)

theorem claimedParts_failsOnly (claims : List (String × Predicate)) :
    FailsOnly (Unlowerable parameters (claims.map Prod.snd))
      (claimedParts parameters claims) := by
  induction claims with
  | nil =>
      exact .of_ok _
  | cons claim rest inductionHypothesis =>
      rw [claimedParts]
      refine (storeTest_failsOnly (by simp)).bind fun test _ => ?_
      exact (inductionHypothesis.imp (Unlowerable.mono (by simp))).bind fun _ _ => .of_ok _

theorem wholePart_failsOnly (formula : Condition) :
    FailsOnly (Unlowerable parameters formula.atoms) (wholePart parameters formula) :=
  FailsOnly.bind (Formula.traverse_failsOnly fun _ => storeTest_failsOnly) fun _ _ => .of_ok _

theorem runParts_failsOnly (run : List (Tree Predicate)) :
    FailsOnly (Unlowerable parameters (run.flatMap Tree.atoms))
      (runParts key parameters taken run) := by
  match run with
  | [] =>
      exact .of_ok _
  | [.leaf predicate] =>
      rw [runParts]
      refine ((claim?_failsOnly key taken predicate).imp ?_).bind fun claim _ => ?_
      · exact Unlowerable.mono (by simp)
      · exact (storeTest_failsOnly (by simp)).bind fun test _ => .of_ok _
  | [.group inner] =>
      rw [runParts, atoms_group_run]
      split
      · -- a group whose claims are given up stays whole, so both ways fail for a predicate of it
        refine (claimAll?_failsOnly key taken _).bind fun claims claimed => ?_
        cases claims with
        | none =>
            exact wholePart_failsOnly inner
        | some claims =>
            rw [← claimAll?_predicates claimed]
            exact claimedParts_failsOnly claims
      · exact wholePart_failsOnly inner
  | first :: second :: others =>
      rw [← Formula.atoms_ofList_or]
      simp only [runParts]
      exact wholePart_failsOnly _

theorem parts_failsOnly (runs : List (List (Tree Predicate))) :
    FailsOnly (Unlowerable parameters (runs.flatten.flatMap Tree.atoms))
      (parts key parameters taken runs) := by
  induction runs generalizing taken with
  | nil =>
      exact .of_ok _
  | cons run rest inductionHypothesis =>
      rw [parts]
      refine ((runParts_failsOnly key taken run).imp ?_).bind fun first _ => ?_
      · exact Unlowerable.mono (by simp)
      · refine ((inductionHypothesis _).imp ?_).bind fun _ _ => .of_ok _
        exact Unlowerable.mono (by simp)

/-- Splitting a condition fails only for a predicate that cannot be lowered. -/
theorem conditionParts_failsOnly (query : Query) :
    FailsOnly (Unlowerable query.parameters query.predicates)
      (parts key query.parameters [] ((query.condition.map Chain.runs).getD [])) := by
  refine (parts_failsOnly key [] _).imp (Unlowerable.mono ?_)
  unfold Query.predicates
  cases query.condition with
  | none =>
      simp
  | some condition =>
      simp [Chain.flatten_runs, Formula.atoms_eq_flatMap_items]

/-- A condition can be split exactly if each of its predicates can be lowered. -/
theorem exists_parts_iff {query : Query} :
    (∃ claimed, parts key query.parameters [] ((query.condition.map Chain.runs).getD []) =
        .ok claimed) ↔
      ∀ predicate ∈ query.predicates,
        ∃ test, predicate.storeTest query.parameters = .ok test := by
  constructor
  · rintro ⟨claimed, split⟩ predicate member
    obtain ⟨sources, lowered, predicates⟩ := exists_sources_of_parts split
    exact storeTest_of_lowered lowered (predicates ▸ member)
  · intro lowered
    exact (conditionParts_failsOnly key query).exists_ok (Predicate.not_unlowerable lowered)

theorem table_eq_ok_iff {query : Query} :
    (∃ table, query.table = .ok table) ↔ query.sources ≠ [] := by
  unfold Query.table
  cases query.sources <;> simp

variable {query : Query}

/-- What compiles has a source, and each of its predicates can be lowered. -/
theorem exists_storeTest_of_compile {schema : Schema} {consistentRead : Bool}
    (compiles : ∃ plan, compile query schema consistentRead = .ok plan) :
    query.sources ≠ [] ∧ ∀ predicate ∈ query.predicates,
      ∃ test, predicate.storeTest query.parameters = .ok test := by
  obtain ⟨plan, compiled⟩ := compiles
  obtain ⟨table, key, claimed, _, tableFound, _, split, _⟩ := compile_ok compiled
  exact ⟨table_eq_ok_iff.mp ⟨table, tableFound⟩, (exists_parts_iff key).mp ⟨claimed, split⟩⟩

/-- A plain query compiles if it has a source and each of its predicates can be lowered. -/
theorem exists_compile (plain : query.IsPlain) (schema : Schema) (consistentRead : Bool)
    (named : query.sources ≠ [])
    (lowered : ∀ predicate ∈ query.predicates,
      ∃ test, predicate.storeTest query.parameters = .ok test) :
    ∃ plan, compile query schema consistentRead = .ok plan := by
  obtain ⟨table, tableFound⟩ := table_eq_ok_iff.mpr named
  have noIndex : query.storeIndex = none := by
    have single := plain.sources
    have beyond : query.sources[1]? = none := List.getElem?_eq_none single
    simp [Query.storeIndex, plain.index, beyond]
  have keyFound : schema.keyOf none = .ok schema.primary := rfl
  obtain ⟨claimed, split⟩ : ∃ claimed, parts schema.primary query.parameters []
      ((query.condition.map Chain.runs).getD []) = .ok claimed :=
    (exists_parts_iff schema.primary).mpr lowered
  unfold compile
  simp only [tableFound, noIndex, keyFound, split, plain.order, direction, bind, Except.bind]
  exact ⟨_, rfl⟩

end StorePlan

namespace SearchPlan

theorem exists_term_iff (parameters : Parameters) (condition : Condition) :
    (∃ query, term parameters condition = .ok query) ↔
      ∀ predicate ∈ Formula.atoms condition,
        ∃ asked, predicate.test parameters = .ok asked := by
  have visits (predicate : Predicate) :
      (∃ made, clause parameters predicate = .ok made) ↔
        ∃ asked, predicate.test parameters = .ok asked := by
    simp [clause, Fallible.map_eq_ok_iff]
  simp only [← visits, ← Formula.exists_traverse_iff]
  constructor
  · rintro ⟨query, made⟩
    obtain ⟨clauses, visited, _⟩ := Fallible.bind_eq_ok_iff.mp made
    exact ⟨clauses, visited⟩
  · rintro ⟨clauses, visited⟩
    exact ⟨_, Fallible.bind_eq_ok_iff.mpr ⟨clauses, visited, rfl⟩⟩

/-- A query compiles for a search engine exactly if it has a source and each of its predicates can
be tested. -/
theorem exists_compile_iff {query : Query} :
    (∃ search, compile query = .ok search) ↔
      query.sources ≠ [] ∧ ∀ predicate ∈ query.predicates,
        ∃ asked, predicate.test query.parameters = .ok asked := by
  unfold Query.predicates compile
  by_cases nameless : query.sources.isEmpty = true
  · have noSources := List.isEmpty_iff.mp nameless
    simp [noSources, throw, throwThe, MonadExceptOf.throw, bind, Except.bind]
  · have named : query.sources ≠ [] := fun none => nameless (List.isEmpty_iff.mpr none)
    cases found : query.condition with
    | none =>
        simp [nameless, named, Fallible.pure_eq_ok_iff]
    | some condition =>
        have term_iff := exists_term_iff query.parameters condition
        simp only [Option.map_some, Option.getD_some, ← term_iff]
        cases term query.parameters condition <;>
          simp [nameless, named, Functor.map, Except.map, pure, Except.pure, bind, Except.bind]

end SearchPlan

namespace Query

variable {query other : Query}

theorem Regroups.forall_iff (regroups : query.Regroups other) {property : Predicate → Prop} :
    (∀ predicate ∈ query.predicates, property predicate) ↔
      ∀ predicate ∈ other.predicates, property predicate :=
  forall_congr' fun predicate => imp_congr_left (regroups.predicates predicate)

/-- A plain query compiles for the store exactly if it does so for an engine and all its patterns
are basic. -/
theorem IsPlain.exists_compile_iff (plain : query.IsPlain) (schema : Schema)
    (consistentRead : Bool) :
    (∃ plan, StorePlan.compile query schema consistentRead = .ok plan) ↔
      (∃ search, SearchPlan.compile query = .ok search) ∧
        ∀ predicate ∈ query.predicates, predicate.HasBasicPattern query.parameters := by
  have lowers : (∃ plan, StorePlan.compile query schema consistentRead = .ok plan) ↔
      query.sources ≠ [] ∧ ∀ predicate ∈ query.predicates,
        ∃ test, predicate.storeTest query.parameters = .ok test :=
    ⟨StorePlan.exists_storeTest_of_compile,
      fun lowered => StorePlan.exists_compile plain schema consistentRead lowered.1 lowered.2⟩
  rw [lowers, SearchPlan.exists_compile_iff, and_assoc, ← forall₂_and]
  simp only [Predicate.exists_storeTest_iff]

/-- What compiles for a key-value store compiles for a search engine. A plain query compiles for the
store exactly if it does so for the engine and all its patterns are basic. So neither the groups and
joins of a condition nor the keys of the table decide whether it compiles. -/
theorem compiles_alike (query : Query) (schema : Schema) (consistentRead : Bool) :
    ((∃ plan, StorePlan.compile query schema consistentRead = .ok plan) →
      ∃ search, SearchPlan.compile query = .ok search) ∧
    (query.IsPlain →
      ((∃ plan, StorePlan.compile query schema consistentRead = .ok plan) ↔
        (∃ search, SearchPlan.compile query = .ok search) ∧
          ∀ predicate ∈ query.predicates, predicate.HasBasicPattern query.parameters)) ∧
    ∀ other : Query, query.Regroups other →
      ((∃ search, SearchPlan.compile query = .ok search) ↔
        ∃ search, SearchPlan.compile other = .ok search) ∧
      (query.IsPlain → other.IsPlain → ∀ otherSchema otherRead,
        ((∃ plan, StorePlan.compile query schema consistentRead = .ok plan) ↔
          ∃ plan, StorePlan.compile other otherSchema otherRead = .ok plan)) := by
  refine ⟨?_, fun plain => plain.exists_compile_iff schema consistentRead, ?_⟩
  · intro compiles
    obtain ⟨named, lowered⟩ := StorePlan.exists_storeTest_of_compile compiles
    refine SearchPlan.exists_compile_iff.mpr ⟨named, fun predicate member => ?_⟩
    exact (Predicate.exists_storeTest_iff.mp (lowered predicate member)).1
  · intro other regroups
    have searchAlike : (∃ search, SearchPlan.compile query = .ok search) ↔
        ∃ search, SearchPlan.compile other = .ok search := by
      rw [SearchPlan.exists_compile_iff, SearchPlan.exists_compile_iff, regroups.forall_iff,
        regroups.sources, regroups.parameters]
    refine ⟨searchAlike, fun plain otherPlain otherSchema otherRead => ?_⟩
    rw [plain.exists_compile_iff, otherPlain.exists_compile_iff, searchAlike, regroups.forall_iff,
      regroups.parameters]

/-- A query with a key and a pattern in a group, and one with the same predicates as alternatives. -/
def groupedQuery (pattern : String) : Query where
  sources := ["orders"]
  index := none
  condition := some (.link
    (.group (.link (.leaf ⟨"id", .compare .eq, some (.parameter "me")⟩) .and
      (.single (.leaf ⟨"name", .like, some (.literal (.string pattern))⟩))))
    .and
    (.single (.leaf ⟨"total", .isNull, none⟩)))
  parameters := [("me", .bool true)]
  columns := []
  order := []
  limit := 0
  skip := 0

def flatQuery (pattern : String) : Query :=
  { groupedQuery pattern with
    condition := some (.link (.leaf ⟨"total", .isNull, none⟩) .or
      (.link (.leaf ⟨"name", .like, some (.literal (.string pattern))⟩) .or
        (.single (.leaf ⟨"id", .compare .eq, some (.parameter "me")⟩)))) }

/-- With a wildcard in front of the text only, neither query compiles for the store. -/
theorem compiles_alike_groupedQuery :
    (groupedQuery "%x").IsPlain ∧ (flatQuery "%x").IsPlain ∧
      (groupedQuery "%x").Regroups (flatQuery "%x") ∧
      (∃ search, SearchPlan.compile (flatQuery "%x") = .ok search) ∧
      ¬ ∃ plan, StorePlan.compile (flatQuery "%x") ⟨[], ⟨"id", none⟩, []⟩ false = .ok plan := by
  have plain : (groupedQuery "%x").IsPlain := ⟨Nat.le_refl 1, rfl, rfl⟩
  have flatPlain : (flatQuery "%x").IsPlain := ⟨Nat.le_refl 1, rfl, rfl⟩
  have regroups : (groupedQuery "%x").Regroups (flatQuery "%x") := by
    refine ⟨rfl, rfl, fun predicate => ?_⟩
    have sameMembers : (groupedQuery "%x").predicates.Perm (flatQuery "%x").predicates := by
      decide
    exact sameMembers.mem_iff
  obtain ⟨_, store, regrouped⟩ :=
    compiles_alike (groupedQuery "%x") ⟨[], ⟨"id", none⟩, []⟩ false
  obtain ⟨searchAlike, storeAlike⟩ := regrouped _ regroups
  refine ⟨plain, flatPlain, regroups, searchAlike.mp ⟨_, rfl⟩, fun compiles => ?_⟩
  have basic := ((store plain).mp ((storeAlike plain flatPlain _ _).mpr compiles)).2
    ⟨"name", .like, some (.literal (.string "%x"))⟩ (by decide) "%x" rfl rfl
  exact Pattern.isBasic_iff.mp basic "%x" rfl

end Query

end DocQuery
