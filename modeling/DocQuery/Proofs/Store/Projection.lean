import DocQuery.Proofs.Store.KeyCondition
import DocQuery.Proofs.Store.Tables

/-!
# Key attributes in the expressions of a plan

A plan that asks for columns asks for the key attributes too, since a page is continued from the
key of its last item. Points separate the aliases of a path, so that a key attribute is named by
an alias of its own exactly if there is no point in its name. The path of any other key attribute
leads into an attribute with the name of its first part.
-/

namespace DocQuery

open Names (IsName NamesPath NamesTest)
open Expression (Tables)

theorem NameSet.mem_insertAll {set : NameSet} {names : List String} {sought : String} :
    sought ∈ insertAll set names ↔ sought ∈ set ∨ sought ∈ names := by
  induction names generalizing set with
  | nil =>
      simp [insertAll]
  | cons name rest inductionHypothesis =>
      change sought ∈ insertAll (set.insert name) rest ↔ _
      rw [inductionHypothesis, mem_insert, List.mem_cons]
      tauto

theorem Key.mem_fields {key : Key} {field : String} :
    field ∈ key.fields ↔ key.contains field = true := by
  rw [fields, NameSet.ofList, NameSet.mem_insertAll, contains, Bool.or_eq_true, beq_iff_eq,
    beq_iff_eq]
  cases key.sort with
  | none =>
      simp only [Option.toList_none, List.mem_singleton, List.not_mem_nil, false_or,
        reduceCtorEq, or_false, eq_comm]
  | some sort =>
      simp only [Option.toList_some, List.mem_cons, List.not_mem_nil, false_or, or_false,
        Option.some.injEq, eq_comm]

namespace Names

variable {tables : Tables} {field path : String}

/-- The only attributes with an alias of their own are those without points. -/
theorem IsAlias.not_mem {column : String} (isAlias : IsAlias tables field path)
    (named : NamesPath tables column path) : '.' ∉ field.toList := by
  have whole : '.' ∉ path.toList := not_mem_of_isName isAlias.1 (by decide) (by decide)
  have alone : path ∈ Text.split '.' path := by
    rw [Text.split_of_not_mem whole]
    exact List.mem_cons_self
  obtain ⟨segment, inColumn, _, found⟩ := Related.exists_of_mem named.flip alone
  obtain rfl : segment = field := Option.some.inj (found.symm.trans isAlias.2)
  exact Text.not_mem_of_mem_split inColumn

theorem NamesPath.isAlias (named : NamesPath tables field path)
    (whole : '.' ∉ field.toList) : IsAlias tables field path := by
  rw [NamesPath, Text.split_of_not_mem whole] at named
  obtain ⟨name, _, ⟨isName, found⟩, nothing, split⟩ := List.forall₂_cons_left_iff.mp named
  rw [List.forall₂_nil_left_iff.mp nothing] at split
  have same : path = name := by
    rw [← Text.intercalate_split_point path, split, String.intercalate_singleton]
  exact ⟨same ▸ isName, same ▸ found⟩

theorem NamesPath.isAlias_iff (named : NamesPath tables field path) :
    IsAlias tables field path ↔ '.' ∉ field.toList :=
  ⟨fun isAlias => isAlias.not_mem named, named.isAlias⟩

theorem exists_isAlias_iff {columns paths : List String}
    (named : List.Forall₂ (NamesPath tables) columns paths) (member : field ∈ columns) :
    (∃ path ∈ paths, IsAlias tables field path) ↔ '.' ∉ field.toList := by
  constructor
  · rintro ⟨path, isPath, isAlias⟩
    obtain ⟨column, _, columnNamed⟩ := Related.exists_of_mem named.flip isPath
    exact isAlias.not_mem columnNamed
  · intro whole
    obtain ⟨path, isPath, fieldNamed⟩ := Related.exists_of_mem named member
    exact ⟨path, isPath, fieldNamed.isAlias whole⟩

end Names

open Names (IsAlias)

namespace StorePlan

/-- The projection of a plan names the columns asked for, in their order, then the key attributes
that are not among them. -/
structure Projects (query : Query) (keys : List Key) (statement : Statement)
    (paths : List String) : Prop where
  text : statement.projection = some (String.intercalate ", " paths)
  columns : ∃ added,
    List.Forall₂ (NamesPath ⟨statement.names, statement.values⟩) (query.columns ++ added) paths ∧
    ∀ field, field ∈ added ↔ (∃ key ∈ keys, key.contains field = true) ∧ field ∉ query.columns
  keyAttributes : ∀ key ∈ keys, ∀ field, key.contains field = true →
    ((∃ path ∈ paths, IsAlias ⟨statement.names, statement.values⟩ field path) ↔
      '.' ∉ field.toList)

/-- The key condition is put together from clauses of key tests, each with the path of its key
attribute. -/
structure LooksUpKeys (key : Key) (statement : Statement) (tests : List StoreTest)
    (clauses : List StoreClause) : Prop where
  text : statement.keyCondition =
    some (String.intercalate " AND " (clauses.map StoreClause.text))
  keyTests : KeyTests key tests
  paths : List.Forall₂ (fun test clause =>
    NamesTest ⟨statement.names, statement.values⟩ test clause ∧
      (IsAlias ⟨statement.names, statement.values⟩ test.field clause.path ↔
        '.' ∉ test.field.toList)) tests clauses

variable {query : Query} {schema : Schema} {consistentRead : Bool} {plan : StorePlan}

section Columns

variable {columns : List String} {keyFields : NameSet} {field : String}

theorem projected_of_ne_nil (asked : columns ≠ []) :
    projected columns keyFields =
      columns ++ keyFields.filter fun field => !columns.contains field := by
  simp [projected, asked]

theorem mem_projected (asked : columns ≠ []) (isKey : field ∈ keyFields) :
    field ∈ projected columns keyFields := by
  rw [projected_of_ne_nil asked]
  by_cases requested : field ∈ columns
  · simp [requested]
  · simp [requested, isKey]

theorem NamesWording.projection_eq {tables : Tables} {parts : List Part} {wording : Wording}
    (named : NamesWording tables parts columns wording) (asked : columns ≠ []) :
    wording.projection = some (String.intercalate ", " wording.columns) := by
  have filled : wording.columns ≠ [] := by
    intro empty
    have noColumns := named.columns
    rw [empty, List.forall₂_nil_right_iff] at noColumns
    exact asked noColumns
  simp [Wording.projection, filled]

end Columns

/-- Every plan for some columns names the key attributes. A key attribute has an alias of its own
in the projection and in the key condition exactly if there is no point in its name. -/
theorem compile_projects (compiled : compile query schema consistentRead = .ok plan)
    (asked : query.columns ≠ []) :
    ∃ key paths, schema.keyOf query.storeIndex = .ok key ∧
      (∀ field, field ∈ plan.keyFields ↔
        schema.primary.contains field = true ∨ key.contains field = true) ∧
      Projects query [schema.primary, key] plan.statement paths ∧
      (plan.statement.keyCondition.isSome = true →
        ∃ tests clauses, LooksUpKeys key plan.statement tests clauses) := by
  obtain ⟨table, key, claimed, forward, _, keyFound, split, _, _, rfl⟩ := compile_ok compiled
  let keyFields := NameSet.insertAll schema.primary.fields key.fields
  let columns := projected query.columns keyFields
  let worded := (wording (kept key claimed) columns).run Names.empty
  have named : NamesWording worded.2.tables (kept key claimed) columns worded.1 :=
    (wording_named (kept key claimed) columns).2
  have inKeyFields (field : String) : field ∈ keyFields ↔
      schema.primary.contains field = true ∨ key.contains field = true := by
    rw [NameSet.mem_insertAll, Key.mem_fields, Key.mem_fields]
  refine ⟨key, worded.1.columns, keyFound, inKeyFields, ?_, ?_⟩
  · have all : columns = query.columns ++ keyFields.filter fun field =>
        !query.columns.contains field :=
      projected_of_ne_nil asked
    have filled : columns ≠ [] := by
      simp [all, asked]
    have columnsNamed := named.columns
    rw [all] at columnsNamed
    exact {
      text := named.projection_eq filled
      columns := by
        refine ⟨_, columnsNamed, fun field => ?_⟩
        simp [inKeyFields]
      keyAttributes := by
        intro other isOther field inOther
        have isKey : field ∈ keyFields := by
          rw [inKeyFields]
          rcases List.mem_pair.mp isOther with rfl | rfl
          · exact .inl inOther
          · exact .inr inOther
        exact Names.exists_isAlias_iff named.columns (mem_projected asked isKey) }
  · intro looksUp
    cases indexed : isIndexed key claimed with
    | false =>
        have noCondition := keyCondition_of_not_indexed indexed columns
        have found : worded.1.keyCondition.isSome = true := looksUp
        rw [noCondition] at found
        cases found
    | true =>
        obtain ⟨tests, clauses, keyTests, text, clausesNamed⟩ :=
          keyClauses_of_indexed (parts_claims split) indexed columns
        refine ⟨tests, clauses, text, keyTests, ?_⟩
        exact clausesNamed.imp fun test clause names => ⟨names, names.path.isAlias_iff⟩

theorem compile_projects_byOwner :
    ∃ plan, compile (pointedQuery (some "byOwner") "owner id") pointedSchema false = .ok plan ∧
      (plan.statement.projection, plan.statement.keyCondition) =
        (some "#user.#name, #line_no, #order.#id, #owner_id", some "#owner_id = :id") ∧
      ∃ key paths, pointedSchema.keyOf (some "byOwner") = .ok key ∧
        (∀ field, field ∈ plan.keyFields ↔
          pointedSchema.primary.contains field = true ∨ key.contains field = true) ∧
        Projects (pointedQuery (some "byOwner") "owner id") [pointedSchema.primary, key]
          plan.statement paths ∧
        (plan.statement.keyCondition.isSome = true →
          ∃ tests clauses, LooksUpKeys key plan.statement tests clauses) := by
  have texts : (compile (pointedQuery (some "byOwner") "owner id") pointedSchema false).map
      (fun plan => (plan.statement.projection, plan.statement.keyCondition)) =
        .ok (some "#user.#name, #line_no, #order.#id, #owner_id", some "#owner_id = :id") := by
    decide +kernel
  obtain ⟨plan, compiled, spelled⟩ := Fallible.map_eq_ok_iff.mp texts
  exact ⟨plan, compiled, spelled, compile_projects compiled (by decide)⟩

/-- No alias stands for the partition key `order.id`, which is looked up and projected as part
`id` of an attribute `order`. -/
theorem compile_divides_key :
    ∃ plan, compile (pointedQuery none "order.id") pointedSchema false = .ok plan ∧
      (plan.statement.projection, plan.statement.keyCondition) =
        (some "#user.#name, #line_no, #order.#id", some "#order.#id = :id") ∧
      "order.id" ∈ plan.keyFields ∧
      ∀ path, plan.statement.names.get? path ≠ some "order.id" := by
  have texts : (compile (pointedQuery none "order.id") pointedSchema false).map
      (fun plan => (plan.statement.projection, plan.statement.keyCondition,
        plan.statement.names, plan.keyFields)) =
        .ok (some "#user.#name, #line_no, #order.#id", some "#order.#id = :id",
          [("#id", "id"), ("#line_no", "line-no"), ("#name", "name"), ("#order", "order"),
            ("#user", "user")],
          ["line-no", "order.id"]) := by
    decide +kernel
  obtain ⟨plan, compiled, spelled⟩ := Fallible.map_eq_ok_iff.mp texts
  obtain ⟨projection, condition, names, keyFields⟩ := by simpa using spelled
  refine ⟨plan, compiled, by rw [projection, condition], by simp [keyFields], fun path => ?_⟩
  rw [names]
  simp only [Dictionary.get?]
  split_ifs <;> simp

end StorePlan

end DocQuery
