import DocQuery.Proofs.Store.Plan

/-!
# The tables of a plan and its expressions

An expression mentions attributes by aliases and values by placeholders, which the tables of the
statement resolve. The main statement is that tables and expressions match: every alias and every
placeholder that is mentioned is in a table, there is no other name in the tables, and what the
names stand for are the fields and values that the condition and the columns were made of.
-/

namespace DocQuery

open Expression
open Names (IsName NamesPath NamesValue NamesTest Mentions)

namespace Names

variable {tables : Tables}

theorem not_isSeparator_of_isNameChar {c : Char} (named : isNameChar c = true) :
    isSeparator c = false := by
  by_contra separates
  simp only [isSeparator, Bool.not_eq_false, Bool.or_eq_true, beq_iff_eq] at separates
  obtain ((rfl | rfl) | rfl) | rfl := separates <;> cases named

theorem IsName.not_isSeparator {marker : Char} {name : String} (named : IsName marker name)
    (isMark : marker = '#' ∨ marker = ':') :
    ∀ c ∈ name.toList, isSeparator c = false := by
  obtain ⟨characters, spelled, areNamed⟩ := named
  intro c member
  rw [spelled, List.mem_cons] at member
  rcases member with rfl | inside
  · rcases isMark with rfl | rfl <;> decide
  · exact not_isSeparator_of_isNameChar (areNamed c inside)

theorem IsName.marker_mem {marker : Char} {name : String} (named : IsName marker name) :
    marker ∈ name.toList := by
  obtain ⟨characters, spelled, _⟩ := named
  rw [spelled]
  exact List.mem_cons_self

namespace NamesPath

variable {path text : String}

theorem isName_of_mem (named : NamesPath tables path text) {name : String}
    (member : name ∈ Text.split '.' text) :
    IsName '#' name ∧ ∃ segment, tables.names.get? name = some segment := by
  obtain ⟨segment, _, isName, found⟩ := Related.exists_of_mem named.flip member
  exact ⟨isName, segment, found⟩

/-- The characters of a path are points and those of its aliases. -/
theorem mem_iff (named : NamesPath tables path text) {c : Char} (noPoint : c ≠ '.') :
    c ∈ text.toList ↔ ∃ name ∈ Text.split '.' text, IsName '#' name ∧ c ∈ name.toList := by
  rw [Text.mem_iff_exists_mem_pieces noPoint]
  constructor
  · rintro ⟨piece, member, inside⟩
    have inPath : String.ofList piece ∈ Text.split '.' text := List.mem_map_of_mem member
    exact ⟨String.ofList piece, inPath, (named.isName_of_mem inPath).1, by simpa using inside⟩
  · rintro ⟨name, inPath, _, inside⟩
    obtain ⟨piece, member, rfl⟩ := List.mem_map.mp inPath
    exact ⟨piece, member, by simpa using inside⟩

/-- A path mentions itself and no placeholder. -/
theorem mentions (named : NamesPath tables path text) :
    paths text = [text] ∧ Expression.placeholders text = [] := by
  constructor
  · apply marked_word
    · intro c member
      by_cases point : c = '.'
      · rw [point]
        decide
      · obtain ⟨name, _, isName, inside⟩ := (named.mem_iff point).mp member
        exact isName.not_isSeparator (.inl rfl) c inside
    · obtain ⟨name, inPath⟩ := List.exists_mem_of_ne_nil _ (Text.split_ne_nil '.' text)
      have isName := (named.isName_of_mem inPath).1
      exact (named.mem_iff (by decide)).mpr ⟨name, inPath, isName, isName.marker_mem⟩
  · apply marked_eq_nil
    intro member
    obtain ⟨name, _, isName, inside⟩ := (named.mem_iff (by decide)).mp member
    exact not_mem_of_isName isName (by decide) (by decide) inside

/-- The aliases of a path stand for its segments. -/
theorem resolve?_eq (named : NamesPath tables path text) :
    resolve? tables.names text = some path := by
  have segments {parts names : List String}
      (related : List.Forall₂ (fun segment name =>
        IsName '#' name ∧ tables.names.get? name = some segment) parts names) :
      names.mapM tables.names.get? = some parts := by
    induction related with
    | nil =>
        rfl
    | cons first _ inductionHypothesis =>
        simp [first.2, inductionHypothesis]
  rw [resolve?, segments named]
  simp [Text.intercalate_split_point]

end NamesPath

theorem NamesValue.mentions {json : Json} {name : String} (named : NamesValue tables json name) :
    Expression.placeholders name = [name] ∧ paths name = [] := by
  constructor
  · exact marked_word (named.1.not_isSeparator (.inr rfl)) named.1.marker_mem
  · exact marked_eq_nil (not_mem_of_isName named.1 (by decide) (by decide))

namespace NamesTest

variable {test : StoreTest} {clause : StoreClause}

theorem operands (named : NamesTest tables test clause) :
    List.Forall₂ (NamesValue tables) test.check.operands clause.check.operands := by
  have checkNamed := named.check
  generalize test.check = check at checkNamed
  generalize clause.check = namedCheck at checkNamed
  cases checkNamed with
  | compare _ value | beginsWith value | contains value =>
      exact .cons value .nil
  | within values | notWithin values =>
      exact values
  | present | absent =>
      exact .nil

/-- A clause mentions its path and its operands. -/
theorem mentions (named : NamesTest tables test clause) :
    paths clause.text = [clause.path] ∧
      Expression.placeholders clause.text = clause.check.operands := by
  have operand (name : String) (member : name ∈ clause.check.operands) :
      Expression.placeholders name = [name] ∧ paths name = [] := by
    obtain ⟨json, _, value⟩ := Related.exists_of_mem named.operands.flip member
    exact NamesValue.mentions value
  constructor
  · have nothing : clause.check.operands.flatMap paths = [] :=
      List.flatMap_eq_nil_iff.mpr fun name member => (operand name member).2
    rw [paths, StoreClause.marked_text (.inl rfl)]
    change paths clause.path ++ clause.check.operands.flatMap paths = _
    rw [named.path.mentions.1, nothing, List.append_nil]
  · have themselves :
        clause.check.operands.flatMap Expression.placeholders = clause.check.operands := by
      rw [List.flatMap_congr fun name member => (operand name member).1]
      exact List.flatMap_singleton' _
    rw [Expression.placeholders, StoreClause.marked_text (.inr rfl)]
    change Expression.placeholders clause.path ++
      clause.check.operands.flatMap Expression.placeholders = _
    rw [named.path.mentions.2, themselves, List.nil_append]

end NamesTest

end Names

/-- The values that the placeholders for a predicate are bound to. -/
def Predicate.bound (parameters : Parameters) (predicate : Predicate) : List Json :=
  match predicate.storeTest parameters with
  | .ok test => test.check.operands
  | .error _ => []

/-- The paths of a text stand for the fields of predicates, in their order, and its placeholders
for the values of these predicates. -/
structure Resolves (tables : Tables) (parameters : Parameters) (predicates : List Predicate)
    (text : String) : Prop where
  fields : (paths text).map (resolve? tables.names) =
    predicates.map fun predicate => some predicate.field
  values : (placeholders text).map tables.values.get? =
    (predicates.flatMap (Predicate.bound parameters)).map fun json => some (.ofJson json)

namespace StorePlan

/-- The clause names the test of the predicate. -/
def NamesPredicate (tables : Tables) (parameters : Parameters) (predicate : Predicate)
    (clause : StoreClause) : Prop :=
  ∃ test, predicate.storeTest parameters = .ok test ∧ NamesTest tables test clause

section Conjunction

variable {tables : Tables} {parameters : Parameters} {predicates : List Predicate}
  {formulas : List (Formula StoreClause)}

/-- What the text of formulas mentions if their clauses are made of names. -/
theorem mentions_conjunction?
    (named : ∀ clause ∈ formulas.flatMap Formula.atoms, ∃ test, NamesTest tables test clause) :
    paths ((StoreExpression.conjunction? formulas).getD "") =
        (formulas.flatMap Formula.atoms).map StoreClause.path ∧
      placeholders ((StoreExpression.conjunction? formulas).getD "") =
        (formulas.flatMap Formula.atoms).flatMap fun clause => clause.check.operands := by
  constructor
  · rw [paths, StoreExpression.marked_conjunction? (.inl rfl), List.map_eq_flatMap]
    refine List.flatMap_congr fun clause member => ?_
    obtain ⟨test, names⟩ := named clause member
    exact names.mentions.1
  · rw [placeholders, StoreExpression.marked_conjunction? (.inr rfl)]
    refine List.flatMap_congr fun clause member => ?_
    obtain ⟨test, names⟩ := named clause member
    exact names.mentions.2

theorem resolves_conjunction?
    (related : List.Forall₂ (NamesPredicate tables parameters) predicates
      (formulas.flatMap Formula.atoms)) :
    Resolves tables parameters predicates ((StoreExpression.conjunction? formulas).getD "") := by
  have named : ∀ clause ∈ formulas.flatMap Formula.atoms, ∃ test,
      NamesTest tables test clause := by
    intro clause member
    obtain ⟨predicate, _, test, _, names⟩ := Related.exists_of_mem related.flip member
    exact ⟨test, names⟩
  obtain ⟨pathsMentioned, placeholdersMentioned⟩ := mentions_conjunction? named
  constructor
  · rw [pathsMentioned, List.map_map]
    symm
    apply Related.map_eq_map
    refine related.imp ?_
    rintro predicate clause ⟨test, lowered, names⟩
    obtain ⟨_, _, _, sameField⟩ := Predicate.storeTest_ok lowered
    rw [Function.comp_apply, names.path.resolve?_eq, sameField]
  · have values : List.Forall₂ (NamesValue tables)
        (predicates.flatMap (Predicate.bound parameters))
        ((formulas.flatMap Formula.atoms).flatMap fun clause => clause.check.operands) := by
      refine List.rel_flatMap related ?_
      rintro predicate clause ⟨test, lowered, names⟩
      rw [Predicate.bound, lowered]
      exact names.operands
    rw [placeholdersMentioned]
    symm
    apply Related.map_eq_map
    exact values.imp fun json name value => value.2.symm

end Conjunction

/-- The tables of a plan match its expressions, where an expression that is left out is read as
the empty text. -/
structure MatchesTables (query : Query) (plan : StorePlan) : Prop where
  aliases : ∀ name, name ∈ plan.statement.names.keys ↔
    name ∈ aliases (plan.statement.keyCondition.getD "") ∨
      name ∈ aliases (plan.statement.filter.getD "") ∨
      name ∈ aliases (plan.statement.projection.getD "")
  placeholders : ∀ name, name ∈ plan.statement.values.keys ↔
    name ∈ placeholders (plan.statement.keyCondition.getD "") ∨
      name ∈ placeholders (plan.statement.filter.getD "")
  /-- No attribute name has two aliases. -/
  unique : ∀ first second segment, plan.statement.names.get? first = some segment →
    plan.statement.names.get? second = some segment → first = second
  /-- Every predicate of the condition is meant in the key condition or in the filter. -/
  condition : ∃ keyPredicates filterPredicates,
    (keyPredicates ++ filterPredicates).Perm ((query.condition.map Formula.atoms).getD []) ∧
    Resolves ⟨plan.statement.names, plan.statement.values⟩ query.parameters keyPredicates
      (plan.statement.keyCondition.getD "") ∧
    Resolves ⟨plan.statement.names, plan.statement.values⟩ query.parameters filterPredicates
      (plan.statement.filter.getD "")
  columns : (paths (plan.statement.projection.getD "")).map (resolve? plan.statement.names) =
    (projected query.columns plan.keyFields).map some

section Wording

variable {parts : List Part} {columns : List String} {tables : Tables} {wording : Wording}

def Wording.keyClauses (wording : Wording) : List StoreClause :=
  ((wording.clauses.filter fun clause => clause.1.isSome).map Prod.snd).flatMap Formula.atoms

def Wording.filterClauses (wording : Wording) : List StoreClause :=
  ((wording.clauses.filter fun clause => clause.1.isNone).map Prod.snd).flatMap Formula.atoms

/-- A clause stands in the key condition or in the filter. -/
theorem Wording.mem_allClauses_iff {clause : StoreClause} :
    clause ∈ wording.allClauses ↔
      clause ∈ wording.keyClauses ∨ clause ∈ wording.filterClauses := by
  simp only [allClauses, keyClauses, filterClauses, List.flatMap_map, List.mem_flatMap,
    List.mem_filter]
  constructor
  · rintro ⟨formula, inClauses, inFormula⟩
    cases claim : formula.1 with
    | none =>
        exact .inr ⟨formula, ⟨inClauses, by simp [claim]⟩, inFormula⟩
    | some field =>
        exact .inl ⟨formula, ⟨inClauses, by simp [claim]⟩, inFormula⟩
  · rintro (⟨formula, ⟨inClauses, _⟩, inFormula⟩ | ⟨formula, ⟨inClauses, _⟩, inFormula⟩)
    · exact ⟨formula, inClauses, inFormula⟩
    · exact ⟨formula, inClauses, inFormula⟩

theorem Wording.mem_flatMap_iff (mentioned : StoreClause → List String) (name : String) :
    name ∈ wording.allClauses.flatMap mentioned ↔
      name ∈ wording.keyClauses.flatMap mentioned ∨
        name ∈ wording.filterClauses.flatMap mentioned := by
  simp only [List.mem_flatMap, mem_allClauses_iff, or_and_right, exists_or]

theorem Wording.aliases_mentions :
    wording.mentions.aliases =
      (wording.allClauses.flatMap fun clause => Text.split '.' clause.path) ++
        wording.columns.flatMap (Text.split '.') := by
  simp [mentions, Mentions.all, Mentions.ofClause, List.flatMap_map]

theorem Wording.placeholders_mentions :
    wording.mentions.placeholders =
      wording.allClauses.flatMap fun clause => clause.check.operands := by
  simp [mentions, Mentions.all, Mentions.ofClause, List.flatMap_map]

namespace NamesWording

theorem exists_test (named : NamesWording tables parts columns wording) :
    ∀ clause ∈ wording.allClauses, ∃ test, NamesTest tables test clause := by
  intro clause member
  obtain ⟨formula, inClauses, inFormula⟩ := List.mem_flatMap.mp member
  obtain ⟨part, _, _, related⟩ := Related.exists_of_mem named.clauses.flip inClauses
  obtain ⟨test, _, names⟩ :=
    Related.exists_of_mem (Formula.forall₂_atoms related).flip inFormula
  exact ⟨test, names⟩

theorem paths_projection (named : NamesWording tables parts columns wording) :
    paths (wording.projection.getD "") = wording.columns := by
  have column : ∀ text ∈ wording.columns, paths text = [text] := by
    intro text member
    obtain ⟨path, _, names⟩ := Related.exists_of_mem named.columns.flip member
    exact (NamesPath.mentions names).1
  have listed : paths (String.intercalate ", " wording.columns) = wording.columns := by
    rw [paths, marked_intercalate (.inl rfl) (by decide)]
    change wording.columns.flatMap paths = _
    rw [List.flatMap_congr column, List.flatMap_singleton']
  rw [Wording.projection]
  split
  · next empty =>
      rw [List.isEmpty_iff.mp empty]
      exact marked_eq_nil (by simp)
  · exact listed

/-- The texts mention what the clauses and columns do. -/
theorem mem_mentions (named : NamesWording tables parts columns wording) (name : String) :
    (name ∈ wording.mentions.aliases ↔
      name ∈ aliases (wording.keyCondition.getD "") ∨
        name ∈ aliases (wording.filter.getD "") ∨
        name ∈ aliases (wording.projection.getD "")) ∧
    (name ∈ wording.mentions.placeholders ↔
      name ∈ placeholders (wording.keyCondition.getD "") ∨
        name ∈ placeholders (wording.filter.getD "")) := by
  have tests := named.exists_test
  have keyMentions : paths (wording.keyCondition.getD "") =
        wording.keyClauses.map StoreClause.path ∧
      placeholders (wording.keyCondition.getD "") =
        wording.keyClauses.flatMap fun clause => clause.check.operands :=
    mentions_conjunction? fun clause member =>
      tests clause (Wording.mem_allClauses_iff.mpr (.inl member))
  have filterMentions : paths (wording.filter.getD "") =
        wording.filterClauses.map StoreClause.path ∧
      placeholders (wording.filter.getD "") =
        wording.filterClauses.flatMap fun clause => clause.check.operands :=
    mentions_conjunction? fun clause member =>
      tests clause (Wording.mem_allClauses_iff.mpr (.inr member))
  constructor
  · rw [aliases, aliases, aliases, keyMentions.1, filterMentions.1, named.paths_projection,
      List.flatMap_map, List.flatMap_map, Wording.aliases_mentions, List.mem_append,
      Wording.mem_flatMap_iff, or_assoc]
  · rw [keyMentions.2, filterMentions.2, Wording.placeholders_mentions, Wording.mem_flatMap_iff]

/-- Tables that grew from empty ones have the names that are mentioned, and no others. -/
theorem mem_keys {names : Names}
    (named : NamesWording names.tables parts columns wording)
    (grows : Names.Grows Names.empty wording.mentions names) (name : String) :
    (name ∈ names.fields.keys ↔ name ∈ wording.mentions.aliases) ∧
      (name ∈ names.values.keys ↔ name ∈ wording.mentions.placeholders) := by
  have found {α : Type} {table : Dictionary α} {entry : α}
      (held : table.get? name = some entry) : name ∈ table.keys := by
    rw [Dictionary.mem_keys_iff, held]
    rfl
  have tests := named.exists_test
  refine ⟨⟨@grows.aliases name, ?_⟩, ⟨@grows.placeholders name, ?_⟩⟩
  · intro member
    rw [Wording.aliases_mentions] at member
    rcases List.mem_append.mp member with inClauses | inColumns
    · obtain ⟨clause, isClause, inPath⟩ := List.mem_flatMap.mp inClauses
      obtain ⟨test, names⟩ := tests clause isClause
      obtain ⟨_, segment, held⟩ := names.path.isName_of_mem inPath
      exact found held
    · obtain ⟨text, isColumn, inPath⟩ := List.mem_flatMap.mp inColumns
      obtain ⟨path, _, names⟩ := Related.exists_of_mem named.columns.flip isColumn
      obtain ⟨_, segment, held⟩ := NamesPath.isName_of_mem names inPath
      exact found held
  · intro member
    rw [Wording.placeholders_mentions] at member
    obtain ⟨clause, isClause, isOperand⟩ := List.mem_flatMap.mp member
    obtain ⟨test, names⟩ := tests clause isClause
    obtain ⟨json, _, _, held⟩ := Related.exists_of_mem names.operands.flip isOperand
    exact found held

end NamesWording

end Wording

variable {query : Query} {schema : Schema} {consistentRead : Bool} {plan : StorePlan}

/-- The tables match the expressions of every plan. Whatever names a table has, the search for
another one ends at the first candidate that fits, with no more tries than there are names. -/
theorem compile_matches_tables (compiled : compile query schema consistentRead = .ok plan) :
    MatchesTables query plan ∧
      ∀ (α : Type) [DecidableEq α] (table : Dictionary α) (base : String) (entry : α),
        ∃ number ≤ table.length,
          Names.fit table base entry = Names.candidate base number ∧
            Names.FirstFit table base entry number := by
  refine ⟨?_, fun α _ table base entry => Names.fit_spec table base entry⟩
  obtain ⟨table, key, claimed, forward, _, _, split, _, _, rfl⟩ := compile_ok compiled
  obtain ⟨sources, lowered, predicates⟩ := exists_sources_of_parts split
  let columns := projected query.columns (NameSet.insertAll schema.primary.fields key.fields)
  obtain ⟨grows, named⟩ := wording_named (kept key claimed) columns
  obtain ⟨keySources, filterSources, keyNamed, filterNamed, together⟩ :=
    exists_sources (wording_lowered lowered key columns)
  have atoms := together.flatMap_right Formula.atoms
  rw [List.flatMap_append, predicates] at atoms
  exact {
    aliases := fun name =>
      (named.mem_keys grows name).1.trans (named.mem_mentions name).1
    placeholders := fun name =>
      (named.mem_keys grows name).2.trans (named.mem_mentions name).2
    unique := fun _ _ _ => (grows.settled Names.settled_nil).unique
    condition := by
      refine ⟨_, _, atoms, resolves_conjunction? ?_, resolves_conjunction? ?_⟩
      · rw [List.flatMap_map]
        exact List.rel_flatMap keyNamed fun _ _ related => Formula.forall₂_atoms related
      · rw [List.flatMap_map]
        exact List.rel_flatMap filterNamed fun _ _ related => Formula.forall₂_atoms related
    columns := by
      have resolved := Related.map_eq_map <| named.columns.imp
        fun path text names => (NamesPath.resolve?_eq names).symm
      exact (congrArg _ named.paths_projection).trans resolved.symm }

/-- A query whose fields `a-b`, `a_b`, `a+b` and `a_b_1` compete for aliases, and whose parameter
`lit1` has the hint of a literal. -/
def crowdedQuery : Query where
  sources := ["orders"]
  index := none
  condition := some (.link (.leaf ⟨"id", .compare .eq, some (.parameter "lit1")⟩) .and
    (.link (.leaf ⟨"a_b_1", .compare .gt, some (.literal (.string "x"))⟩) .or
      (.single (.group (.link (.leaf ⟨"a-b", .isIn, some (.parameter "lit1_0")⟩) .and
        (.single (.leaf ⟨"a_b", .compare .ne, some (.parameter "lit1")⟩)))))))
  parameters := [("lit1", .string "y"), ("lit1_0", .array [.bool true, .null])]
  columns := ["a+b.id", "a_b_1"]
  order := []
  limit := 0
  skip := 0

theorem compile_matches_tables_crowdedQuery :
    ∃ plan, compile crowdedQuery ⟨[], ⟨"id", none⟩, []⟩ false = .ok plan ∧
      (plan.statement.names, plan.statement.filter, plan.statement.projection) =
        ([("#a_b", "a-b"), ("#a_b_1", "a_b_1"), ("#a_b_2", "a_b"), ("#a_b_3", "a+b"),
            ("#id", "id")],
          some ("#a_b_1 > :lit1_1 OR " ++
            "(#a_b IN (:lit1_0_0, :lit1_0_1) AND #a_b_2 <> :lit1)"),
          some "#a_b_3.#id, #a_b_1, #id") ∧
      MatchesTables crowdedQuery plan ∧
      ∀ (α : Type) [DecidableEq α] (table : Dictionary α) (base : String) (entry : α),
        ∃ number ≤ table.length,
          Names.fit table base entry = Names.candidate base number ∧
            Names.FirstFit table base entry number := by
  have texts : (compile crowdedQuery ⟨[], ⟨"id", none⟩, []⟩ false).map
      (fun plan => (plan.statement.names, plan.statement.filter, plan.statement.projection)) =
        .ok ([("#a_b", "a-b"), ("#a_b_1", "a_b_1"), ("#a_b_2", "a_b"), ("#a_b_3", "a+b"),
            ("#id", "id")],
          some ("#a_b_1 > :lit1_1 OR " ++
            "(#a_b IN (:lit1_0_0, :lit1_0_1) AND #a_b_2 <> :lit1)"),
          some "#a_b_3.#id, #a_b_1, #id") := by
    decide +kernel
  obtain ⟨plan, compiled, spelled⟩ := Fallible.map_eq_ok_iff.mp texts
  exact ⟨plan, compiled, spelled, compile_matches_tables compiled⟩

end StorePlan

end DocQuery
