import DocQuery.Proofs.Store.Claims

/-!
# Plans that a key-value store can run

The store runs a query when its key condition is an equality on the partition key, with one test
of the sort key beside it at most, and nothing else. One alias has to stand for each key
attribute, since points lead into the parts of an attribute.

The method of a plan follows from its key condition, and what the key condition spells is known
token by token. Names are divided at points, so that the store can run it exactly if no key
attribute that it tests has a point in its name.
-/

namespace DocQuery

open Expression
open Names (IsAlias NamesTest)

namespace StorePlan

/-- What a key condition tests, in the order of its text: the partition key, and perhaps the
sort key behind or before it. -/
inductive KeyTests (key : Key) : List StoreTest → Prop
  | partition {partition : StoreTest} :
      PartitionTest key partition → KeyTests key [partition]
  | sortBehind {partition sort : StoreTest} :
      PartitionTest key partition → SortTest key sort → KeyTests key [partition, sort]
  | sortBefore {sort partition : StoreTest} :
      SortTest key sort → PartitionTest key partition → KeyTests key [sort, partition]

/-- Groups of tokens with `AND` between them. -/
def conjunctionTokens : List (List Expression.Token) → List Expression.Token
  | [] => []
  | [tokens] => tokens
  | tokens :: rest => tokens ++ .keyword .and :: conjunctionTokens rest

/-- The store can run the text as a key condition: with aliases and placeholders replaced, it
spells key tests, where every key attribute is named by one alias. -/
def IsKeyCondition (key : Key) (tables : Tables) (text : String) : Prop :=
  ∃ tests, KeyTests key tests ∧
    scan tables text.toList = some (conjunctionTokens (tests.map StoreTest.aliasedTokens))

/-- The text spells key tests, with the names of the key attributes divided at points. The store
can run it exactly if this divides none of them. -/
structure KeyLookup (key : Key) (tables : Tables) (text : String) (tests : List StoreTest) :
    Prop where
  keyTests : KeyTests key tests
  scanned : scan tables text.toList = some (conjunctionTokens (tests.map StoreTest.tokens))
  isKeyCondition_iff : IsKeyCondition key tables text ↔ ∀ test ∈ tests, '.' ∉ test.field.toList

/-- The plan is a query by a key condition or a scan of the table. -/
structure Dispatches (query : Query) (key : Key) (plan : StorePlan) : Prop where
  method : plan.method = .indexedQuery ∨ plan.method = .fullScan
  indexed_iff : plan.method = .indexedQuery ↔ plan.statement.keyCondition.isSome = true
  keyCondition : ∀ text, plan.statement.keyCondition = some text →
    ∃ tests, KeyLookup key ⟨plan.statement.names, plan.statement.values⟩ text tests
  index : plan.statement.index.isSome = true → plan.method = .indexedQuery
  scanned : plan.method = .fullScan →
    plan.statement.index = none ∧ plan.statement.forward = none
  /-- An equality on the partition key that stands alone is enough for a query. -/
  lookup : ∀ condition predicate, query.condition = some condition →
    [.leaf predicate] ∈ condition.runs → predicate.field = key.partition →
      predicate.operator = .compare .eq → plan.method = .indexedQuery

/-- What a plan reads: a partition that its key condition determines, or a whole table. -/
inductive Reads (key : Key) (plan : StorePlan) : Prop
  | partition {text : String} {tests : List StoreTest} :
      plan.method = .indexedQuery →
      plan.statement.keyCondition = some text →
      KeyLookup key ⟨plan.statement.names, plan.statement.values⟩ text tests →
      Reads key plan
  | table :
      plan.method = .fullScan →
      plan.statement.keyCondition = none →
      plan.statement.index = none →
      plan.statement.forward = none →
      Reads key plan

variable {key : Key}

theorem KeyTest.partitionTest {test : StoreTest} (keyTest : KeyTest key test)
    (onPartition : test.field = key.partition) : PartitionTest key test :=
  keyTest.resolve_right fun sortTest => sortTest.2.1 onPartition

theorem KeyTest.sortTest {test : StoreTest} (keyTest : KeyTest key test)
    (elsewhere : test.field ≠ key.partition) : SortTest key test :=
  keyTest.resolve_left fun partitionTest => elsewhere partitionTest.1

theorem KeyTest.field_eq {test : StoreTest} (keyTest : KeyTest key test) :
    test.field = key.partition ∨ key.sort = some test.field :=
  keyTest.imp And.left And.left

section KeyConditions

variable {tables : Tables} {text : String}

theorem KeyTests.exists_partition {tests : List StoreTest} (keyTests : KeyTests key tests) :
    ∃ test ∈ tests, test.field = key.partition := by
  cases keyTests with
  | @partition partition partitionTest =>
      exact ⟨partition, by simp, partitionTest.1⟩
  | @sortBehind partition sort partitionTest _ =>
      exact ⟨partition, by simp, partitionTest.1⟩
  | @sortBefore sort partition _ partitionTest =>
      exact ⟨partition, by simp, partitionTest.1⟩

theorem mem_conjunctionTokens {token : Expression.Token} {groups : List (List Expression.Token)}
    (different : token ≠ .keyword .and) :
    token ∈ conjunctionTokens groups ↔ ∃ tokens ∈ groups, token ∈ tokens := by
  fun_induction conjunctionTokens groups with
  | case1 =>
      simp
  | case2 tokens =>
      simp
  | case3 tokens rest _ inductionHypothesis =>
      simp [different, inductionHypothesis]

/-- A text that spells the tests with divided names is a key condition if none is divided. -/
theorem keyLookup_of_scan {tests : List StoreTest} (keyTests : KeyTests key tests)
    (scanned : scan tables text.toList = some (conjunctionTokens (tests.map StoreTest.tokens))) :
    KeyLookup key tables text tests := by
  refine ⟨keyTests, scanned, ?_, fun whole => ⟨tests, keyTests, ?_⟩⟩
  · rintro ⟨others, _, spelled⟩ test member divided
    -- the same text would be scanned with a dot and without one
    have pointed : .dot ∈ conjunctionTokens (tests.map StoreTest.tokens) :=
      (mem_conjunctionTokens (by simp)).mpr
        ⟨test.tokens, List.mem_map_of_mem member, StoreTest.dot_mem_tokens.mpr divided⟩
    rw [Option.some.inj (scanned.symm.trans spelled)] at pointed
    obtain ⟨tokens, isGroup, inside⟩ := (mem_conjunctionTokens (by simp)).mp pointed
    obtain ⟨other, _, rfl⟩ := List.mem_map.mp isGroup
    exact StoreTest.dot_not_mem_aliasedTokens other inside
  · rw [scanned, List.map_congr_left fun test member =>
      StoreTest.tokens_of_not_mem (whole test member)]

/-- An alias stands for the partition key in every key condition. -/
theorem IsKeyCondition.exists_isAlias (isKeyCondition : IsKeyCondition key tables text) :
    ∃ path, IsAlias tables key.partition path := by
  obtain ⟨tests, keyTests, scanned⟩ := isKeyCondition
  obtain ⟨test, member, onPartition⟩ := keyTests.exists_partition
  have named : .name test.field ∈ conjunctionTokens (tests.map StoreTest.aliasedTokens) :=
    (mem_conjunctionTokens (by simp)).mpr
      ⟨test.aliasedTokens, List.mem_map_of_mem member, test.name_mem_aliasedTokens⟩
  rw [onPartition] at named
  exact Names.exists_isAlias_of_scan scanned named

end KeyConditions

/-- There are two key attributes at most, so that of three key tests two are of one field. -/
theorem length_le_two {tests : List StoreTest} (keyTests : ∀ test ∈ tests, KeyTest key test)
    (distinct : (tests.map StoreTest.field).Nodup) : tests.length ≤ 2 := by
  have within : tests.map StoreTest.field ⊆ key.partition :: key.sort.toList := by
    intro field member
    obtain ⟨test, testMember, sameField⟩ := List.mem_map.mp member
    rcases (keyTests test testMember).field_eq with onPartition | onSort
    · simp [← sameField, onPartition]
    · simp [← sameField, onSort]
  have bound := (distinct.subperm within).length_le
  have sortBound : key.sort.toList.length ≤ 1 := by
    cases key.sort <;> simp
  simp only [List.length_map, List.length_cons] at bound
  omega

theorem keyTests_of_distinct {tests : List StoreTest}
    (keyTests : ∀ test ∈ tests, KeyTest key test)
    (distinct : (tests.map StoreTest.field).Nodup)
    (pinned : key.partition ∈ tests.map StoreTest.field) : KeyTests key tests := by
  have few := length_le_two keyTests distinct
  match tests with
  | [] =>
      simp at pinned
  | [test] =>
      have onPartition : test.field = key.partition := by
        simpa [eq_comm] using pinned
      exact .partition ((keyTests test (by simp)).partitionTest onPartition)
  | [first, second] =>
      have firstTest := keyTests first (by simp)
      have secondTest := keyTests second (by simp)
      have different : first.field ≠ second.field := by
        simpa using distinct
      by_cases onPartition : first.field = key.partition
      · have elsewhere : second.field ≠ key.partition := by
          rw [← onPartition]
          exact different.symm
        exact .sortBehind (firstTest.partitionTest onPartition) (secondTest.sortTest elsewhere)
      · have secondPinned : second.field = key.partition := by
          simp only [List.map_cons, List.map_nil, List.mem_cons, List.not_mem_nil, or_false]
            at pinned
          exact (pinned.resolve_left (Ne.symm onPartition)).symm
        exact .sortBefore (firstTest.sortTest onPartition)
          (secondTest.partitionTest secondPinned)
  | first :: second :: third :: others =>
      simp at few

/-- The parts that claim key attributes are tests of these attributes. -/
theorem exists_tests {parts : List Part}
    (looksUp : ∀ part ∈ parts, ∀ field, part.claim = some field → part.LooksUp key field) :
    ∃ tests : List StoreTest,
      List.Forall₂ (fun test part => part.formula = Formula.leaf test) tests
        (parts.filter fun part => part.claim.isSome) ∧
      tests.map StoreTest.field = parts.filterMap Part.claim ∧
      ∀ test ∈ tests, KeyTest key test := by
  induction parts with
  | nil =>
      exact ⟨[], .nil, rfl, by simp⟩
  | cons part rest inductionHypothesis =>
      obtain ⟨tests, formulas, fields, keyTests⟩ :=
        inductionHypothesis fun other member => looksUp other (List.mem_cons_of_mem part member)
      cases claimFound : part.claim with
      | none =>
          exact ⟨tests, by simpa [claimFound] using formulas, by simpa [claimFound] using fields,
            keyTests⟩
      | some field =>
          obtain ⟨test, formula, sameField, keyTest⟩ :=
            looksUp part List.mem_cons_self field claimFound
          refine ⟨test :: tests, ?_, ?_, ?_⟩
          · rw [List.filter_cons_of_pos (by simp [claimFound])]
            exact .cons formula formulas
          · simp [claimFound, sameField, fields]
          · simpa [keyTest] using keyTests

section Leaves

variable {Related : StoreTest → StoreClause → Prop}

theorem leaf_of_corresponds {test : StoreTest} {formula : Formula StoreClause}
    (worded : Chain.Corresponds (Tree.Corresponds Related) (Formula.leaf test) formula) :
    ∃ clause, formula = Formula.leaf clause ∧ Related test clause := by
  cases worded with
  | single node =>
      cases node with
      | leaf related =>
          exact ⟨_, rfl, related⟩

theorem exists_leaves {tests : List StoreTest} {formulas : List (Formula StoreClause)}
    (related : List.Forall₂ (fun test formula =>
      ∃ clause, formula = Formula.leaf clause ∧ Related test clause) tests formulas) :
    ∃ clauses : List StoreClause, formulas = clauses.map Formula.leaf ∧
      List.Forall₂ Related tests clauses := by
  induction related with
  | nil =>
      exact ⟨[], rfl, .nil⟩
  | cons first _ inductionHypothesis =>
      obtain ⟨clause, rfl, named⟩ := first
      obtain ⟨clauses, rfl, others⟩ := inductionHypothesis
      exact ⟨clause :: clauses, rfl, .cons named others⟩

end Leaves

/-- The clauses that claim key attributes name the tests of the parts they come from. -/
theorem exists_clauses {tests : List StoreTest} {parts : List Part} (columns : List String)
    (formulas : List.Forall₂ (fun test part => part.formula = Formula.leaf test) tests
      (parts.filter fun part => part.claim.isSome)) :
    let worded := (wording parts columns).run Names.empty
    ∃ clauses : List StoreClause,
      ((worded.1.clauses.filter fun clause => clause.1.isSome).map Prod.snd) =
        clauses.map Formula.leaf ∧
      List.Forall₂ (NamesTest worded.2.tables) tests clauses := by
  intro worded
  have namedParts := (wording_named parts columns).2.clauses
  have namedClaims := List.rel_filter
    (p := fun part : Part => part.claim.isSome) (q := fun clause => clause.1.isSome)
    (fun part clause related => by simp [related.1]) namedParts
  have leaves := (Related.trans formulas namedClaims).imp
    fun test clause ⟨part, formula, _, partNamed⟩ => leaf_of_corresponds (formula ▸ partNamed)
  exact exists_leaves (List.forall₂_map_right_iff.mpr leaves)

theorem conjunction?_leaves {clauses : List StoreClause} (nonempty : clauses ≠ []) :
    StoreExpression.conjunction? (clauses.map Formula.leaf) =
      some (String.intercalate " AND " (clauses.map StoreClause.text)) := by
  have text_leaf (clause : StoreClause) :
      StoreExpression.text (Formula.leaf clause) = clause.text := by
    simp [StoreExpression.text, Formula.leaf, Tree.foldChain, Tree.fold,
      StoreExpression.chainText, Chain.runs]
  have single (clause : StoreClause) : Chain.isSingle (Formula.leaf clause) = true :=
    rfl
  cases clauses with
  | nil =>
      exact absurd rfl nonempty
  | cons first others =>
      cases others with
      | nil =>
          simp [StoreExpression.conjunction?, text_leaf]
      | cons second later =>
          simp [StoreExpression.conjunction?, text_leaf, single, Function.comp_def]

/-- Clauses with `AND` between them spell the tokens of their tests. -/
theorem spells_conjunction {tables : Tables} {tests : List StoreTest}
    {clauses : List StoreClause}
    (words : List.Forall₂ (StoreClause.Words tables) tests clauses) :
    Spells tables (String.intercalate " AND " (clauses.map StoreClause.text)).toList
      (conjunctionTokens (tests.map StoreTest.tokens)) := by
  induction words with
  | nil =>
      exact Spells.nil
  | cons first rest inductionHypothesis =>
      have firstSpells := StoreClause.spells_text first
      cases rest with
      | nil =>
          simpa [conjunctionTokens] using firstSpells
      | cons second later =>
          have joined := (inductionHypothesis.space.keyword .and (by simp)).space
          simp only [List.map_cons] at joined ⊢
          rw [String.intercalate_cons_cons]
          simpa [conjunctionTokens, Keyword.text] using firstSpells.append joined (by simp)

theorem isIndexed_iff {parts : List Part} :
    isIndexed key parts = true ↔ key.partition ∈ parts.filterMap Part.claim := by
  simp [isIndexed]

/-- The key condition of parts that claim the partition key is put together from the clauses of
key tests. -/
theorem keyClauses_of_indexed {taken : List String} {parts : List Part}
    (claims : Claims key taken parts) (indexed : isIndexed key parts = true)
    (columns : List String) :
    let worded := (wording (kept key parts) columns).run Names.empty
    ∃ tests clauses, KeyTests key tests ∧
      worded.1.keyCondition =
        some (String.intercalate " AND " (clauses.map StoreClause.text)) ∧
      List.Forall₂ (NamesTest worded.2.tables) tests clauses := by
  intro worded
  obtain ⟨tests, formulas, fields, keyTests⟩ := exists_tests claims.looksUp
  have pinned : key.partition ∈ tests.map StoreTest.field := by
    rw [fields]
    exact isIndexed_iff.mp indexed
  have distinct : (tests.map StoreTest.field).Nodup := by
    rw [fields]
    exact claims.distinct
  -- nothing is demoted, so that the clauses that claim keys are those of the tests
  have keptAll : kept key parts = parts := if_pos indexed
  rw [← keptAll] at formulas
  obtain ⟨clauses, spelled, named⟩ := exists_clauses columns formulas
  have nonempty : clauses ≠ [] := by
    rintro rfl
    cases named
    simp at pinned
  refine ⟨tests, clauses, keyTests_of_distinct keyTests distinct pinned, ?_, named⟩
  rw [← conjunction?_leaves nonempty, ← spelled]
  rfl

theorem keyCondition_of_indexed {taken : List String} {parts : List Part}
    (claims : Claims key taken parts) (indexed : isIndexed key parts = true)
    (columns : List String) :
    let worded := (wording (kept key parts) columns).run Names.empty
    ∃ text tests, worded.1.keyCondition = some text ∧
      KeyLookup key worded.2.tables text tests := by
  intro worded
  obtain ⟨tests, clauses, keyTests, condition, named⟩ :=
    keyClauses_of_indexed claims indexed columns
  have words := named.imp fun test clause => NamesTest.words
  have scanned := spells_conjunction words [] detached_nil
  exact ⟨_, tests, condition, keyLookup_of_scan keyTests (by simpa using scanned)⟩

theorem keyCondition_of_not_indexed {parts : List Part}
    (notIndexed : isIndexed key parts = false) (columns : List String) :
    ((wording (kept key parts) columns).run Names.empty).1.keyCondition = none := by
  have demoted : kept key parts = parts.map Part.demote := by
    simp [kept, notIndexed]
  have namedParts := (wording_named (kept key parts) columns).2.clauses
  have unclaimed : ∀ clause ∈ ((wording (kept key parts) columns).run Names.empty).1.clauses,
      ¬ clause.1.isSome = true := by
    intro clause member
    obtain ⟨part, partMember, claim, _⟩ := Related.exists_of_mem namedParts.flip member
    rw [demoted] at partMember
    obtain ⟨source, _, rfl⟩ := List.mem_map.mp partMember
    simp [claim, Part.demote]
  rw [Wording.keyCondition, List.filter_eq_nil_iff.mpr unclaimed]
  rfl

variable {query : Query} {schema : Schema} {consistentRead : Bool} {plan : StorePlan}

/-- A scan has no direction. -/
theorem direction_of_not_indexed {order : List SortField} {forward : Option Bool}
    (directed : direction order key false = .ok forward) : forward = none := by
  unfold direction at directed
  split at directed
  · exact (Except.ok.inj directed).symm
  · split at directed
    · cases directed
    · split at directed
      · cases directed
      · exact (Except.ok.inj directed).symm

/-- A plan reads one partition, which its key condition determines, or all of the table. -/
theorem compile_reads (compiled : compile query schema consistentRead = .ok plan) :
    ∃ key, schema.keyOf plan.statement.index = .ok key ∧
      plan.statement.index = query.storeIndex ∧ Reads key plan := by
  obtain ⟨table, key, claimed, forward, _, keyFound, split, reachable, directed, rfl⟩ :=
    compile_ok compiled
  refine ⟨key, keyFound, rfl, ?_⟩
  let columns := projected query.columns (NameSet.insertAll schema.primary.fields key.fields)
  cases indexed : isIndexed key claimed with
  | true =>
      obtain ⟨text, tests, condition, lookup⟩ :=
        keyCondition_of_indexed (parts_claims split) indexed columns
      exact .partition rfl condition lookup
  | false =>
      have noIndex : query.storeIndex = none := by
        by_contra chosen
        have unreachable := reachable (Option.isSome_iff_ne_none.mpr chosen)
        rw [indexed] at unreachable
        cases unreachable
      rw [indexed] at directed
      exact .table rfl (keyCondition_of_not_indexed indexed columns) noIndex
        (direction_of_not_indexed directed)

/-- An equality on the partition key that stands alone makes a query of the plan. -/
theorem method_of_lookup (condition : Condition) (predicate : Predicate)
    (compiled : compile query schema consistentRead = .ok plan)
    (keyFound : schema.keyOf plan.statement.index = .ok key)
    (found : query.condition = some condition) (alone : [.leaf predicate] ∈ condition.runs)
    (onPartition : predicate.field = key.partition)
    (equality : predicate.operator = .compare .eq) : plan.method = .indexedQuery := by
  obtain ⟨table, other, claimed, forward, _, otherFound, split, _, _, rfl⟩ := compile_ok compiled
  obtain rfl : other = key := Except.ok.inj (otherFound.symm.trans keyFound)
  rw [found] at split
  have claimedPartition := partition_claimed alone onPartition equality split
  exact if_pos (isIndexed_iff.mpr (by simpa using claimedPartition))

/-- Every plan is a query by a key condition or a scan, with the key of what it reads. The store
can run the key condition exactly if the key attributes in it have no points in their names. -/
theorem compile_dispatches (compiled : compile query schema consistentRead = .ok plan) :
    ∃ key, schema.keyOf plan.statement.index = .ok key ∧
      plan.statement.index = query.storeIndex ∧ Dispatches query key plan := by
  obtain ⟨key, keyFound, sameIndex, reads⟩ := compile_reads compiled
  refine ⟨key, keyFound, sameIndex, ?_⟩
  have lookup := fun condition predicate =>
    method_of_lookup condition predicate compiled keyFound
  cases reads with
  | @partition text tests method condition keyLookup =>
      exact {
        method := .inl method
        indexed_iff := by simp [method, condition]
        keyCondition := by
          intro other same
          obtain rfl := Option.some.inj (condition.symm.trans same)
          exact ⟨tests, keyLookup⟩
        index := fun _ => method
        scanned := by simp [method]
        lookup }
  | table method noCondition noIndex noDirection =>
      exact {
        method := .inr method
        indexed_iff := by simp [method, noCondition]
        keyCondition := by
          intro text same
          rw [noCondition] at same
          cases same
        index := by simp [noIndex]
        scanned := fun _ => ⟨noIndex, noDirection⟩
        lookup }

/-- A table with an index whose partition key is `owner` and whose sort key is `at`. -/
def datedSchema : Schema where
  fields := []
  primary := ⟨"id", none⟩
  indexes := [("byDate", ⟨"owner", some "at"⟩)]

/-- A query of the index in descending order. The partition key is looked up once, and mentioned
again beside another field. -/
def datedQuery : Query where
  sources := ["orders"]
  index := some "byDate"
  condition := some (.link (.leaf ⟨"at", .like, some (.literal (.string "2024-%"))⟩) .and
    (.link (.leaf ⟨"owner", .compare .eq, some (.parameter "me")⟩) .and
      (.link (.leaf ⟨"owner", .compare .eq, some (.parameter "me")⟩) .or
        (.single (.leaf ⟨"total", .compare .gt, some (.literal (.string "5"))⟩)))))
  parameters := [("me", .string "x")]
  columns := []
  order := [⟨"at", .desc⟩]
  limit := 0
  skip := 0

theorem compile_dispatches_datedQuery :
    ∃ plan, compile datedQuery datedSchema false = .ok plan ∧
      (plan.statement.keyCondition, plan.statement.filter, plan.statement.forward) =
        (some "begins_with(#at, :lit1) AND #owner = :me", some "#owner = :me OR #total > :lit2",
          some false) ∧
      ∃ key, datedSchema.keyOf plan.statement.index = .ok key ∧
        plan.statement.index = datedQuery.storeIndex ∧ Dispatches datedQuery key plan := by
  have texts : (compile datedQuery datedSchema false).map
      (fun plan =>
        (plan.statement.keyCondition, plan.statement.filter, plan.statement.forward)) =
        .ok (some "begins_with(#at, :lit1) AND #owner = :me",
          some "#owner = :me OR #total > :lit2", some false) := by
    decide +kernel
  obtain ⟨plan, compiled, spelled⟩ := Fallible.map_eq_ok_iff.mp texts
  exact ⟨plan, compiled, spelled, compile_dispatches compiled⟩

/-- A table whose keys have blanks, hyphens and points in their names. -/
def pointedSchema : Schema where
  fields := []
  primary := ⟨"order.id", some "line-no"⟩
  indexes := [("byOwner", ⟨"owner id", none⟩)]

/-- A query by the partition key of the table or, with an index, of the index. -/
def pointedQuery (index : Option String) (partition : String) : Query where
  sources := ["orders"]
  index
  condition := some (.single (.leaf ⟨partition, .compare .eq, some (.parameter "id")⟩))
  parameters := [("id", .string "7")]
  columns := ["user.name", "line-no"]
  order := []
  limit := 0
  skip := 0

/-- The partition key `order.id` is looked up as part `id` of an attribute `order`, which is no key
condition. It would be one if an alias stood for the whole name. -/
theorem compile_misses_partition :
    ∃ plan,
      compile { pointedQuery none "order.id" with columns := [] } pointedSchema false = .ok plan ∧
      plan.method = .indexedQuery ∧
      plan.statement.keyCondition = some "#order.#id = :id" ∧
      ¬ IsKeyCondition pointedSchema.primary ⟨plan.statement.names, plan.statement.values⟩
        "#order.#id = :id" ∧
      IsKeyCondition pointedSchema.primary ⟨[("#order_id", "order.id")], [(":id", .string "7")]⟩
        "#order_id = :id" := by
  have texts : (compile { pointedQuery none "order.id" with columns := [] } pointedSchema
      false).map (fun plan => (plan.method, plan.statement.keyCondition,
        plan.statement.names)) =
        .ok (.indexedQuery, some "#order.#id = :id", [("#id", "id"), ("#order", "order")]) := by
    decide +kernel
  obtain ⟨plan, compiled, spelled⟩ := Fallible.map_eq_ok_iff.mp texts
  obtain ⟨method, condition, names⟩ := by simpa using spelled
  refine ⟨plan, compiled, method, condition, ?_, ?_⟩
  · intro isKeyCondition
    obtain ⟨path, _, found⟩ := isKeyCondition.exists_isAlias
    rw [names] at found
    simp only [Dictionary.get?] at found
    split_ifs at found <;> simp [pointedSchema] at found
  · refine ⟨[⟨"order.id", some "id", .compare .eq (.string "7")⟩], .partition ⟨rfl, _, rfl⟩, ?_⟩
    decide +kernel

end StorePlan

end DocQuery
