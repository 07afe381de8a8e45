import DocQuery.Proofs.Search.Reading
import DocQuery.Proofs.Wire.Encoding
import DocQuery.Search.Plan

/-!
# The wire form of a search query keeps the query

A query can be put together again from what its wire form is read as, so that different queries
have different wire forms. The clauses in it are wire forms of queries themselves, and a `bool`
clause demands one of its alternatives exactly if it offers any.
-/

namespace DocQuery

open Wire (Holds)

namespace Bounds

/-- The bounds that stand in an object, each as it is written. -/
def ofWritten : Json → Bounds
  | .object fields =>
      ⟨Dictionary.get? fields "gt", Dictionary.get? fields "gte", Dictionary.get? fields "lt",
        Dictionary.get? fields "lte"⟩
  | _ => none

theorem ofWritten_encode (bounds : Bounds) : ofWritten bounds.encode = bounds := by
  let fields := Wire.write? "gt" id bounds.gt ++ Wire.write? "gte" id bounds.gte
    ++ Wire.write? "lt" id bounds.lt ++ Wire.write? "lte" id bounds.lte
  have gt : Holds fields "gt" bounds.gt := by simp [Holds, fields]
  have gte : Holds fields "gte" bounds.gte := by simp [Holds, fields]
  have lt : Holds fields "lt" bounds.lt := by simp [Holds, fields]
  have lte : Holds fields "lte" bounds.lte := by simp [Holds, fields]
  change Bounds.mk (Dictionary.get? fields "gt") (Dictionary.get? fields "gte")
    (Dictionary.get? fields "lt") (Dictionary.get? fields "lte") = bounds
  rw [gt.get?_eq, gte.get?_eq, lt.get?_eq, lte.get?_eq]

end Bounds

/-- The query that is this test. -/
def SearchLeaf.query : SearchLeaf → SearchQuery
  | .term field value => .term field value
  | .terms field values => .terms field values
  | .range field bounds => .range field (Bounds.ofWritten bounds)
  | .exist field => .exist field
  | .wildcard field pattern => .wildcard field pattern

/-- The query that combines these members. -/
def BoolClause.query (clause : BoolClause SearchQuery) : SearchQuery :=
  .bool clause.must clause.mustNot clause.should

namespace SearchQuery

mutual

theorem fold_query : ∀ query : SearchQuery,
    query.fold SearchLeaf.query BoolClause.query = query
  | .term _ _ | .terms _ _ | .exist _ | .wildcard _ _ => by
      rw [fold, SearchLeaf.query]
  | .range _ bounds => by
      rw [fold, SearchLeaf.query, bounds.ofWritten_encode]
  | .bool must mustNot should => by
      rw [fold, BoolClause.query, foldAll_query must, foldAll_query mustNot, foldAll_query should]

theorem foldAll_query : ∀ queries : List SearchQuery,
    foldAll SearchLeaf.query BoolClause.query queries = queries
  | [] => by
      rw [foldAll]
  | first :: rest => by
      rw [foldAll, fold_query first, foldAll_query rest]

end

/-- A query is put together again from its wire form. -/
theorem readClause?_query (query : SearchQuery) :
    query.encode.readClause? SearchLeaf.query BoolClause.query = some query := by
  rw [readClause?_encode, fold_query]

theorem encode_injective {left right : SearchQuery} (same : left.encode = right.encode) :
    left = right := by
  have rightRead := right.readClause?_query
  rw [← same, left.readClause?_query] at rightRead
  exact Option.some.inj rightRead

end SearchQuery

/-- The clauses of a query on the wire: the query itself, and what stands in the lists of those
clauses that are combinations. -/
inductive Json.HasClause (query : Json) : Json → Prop
  | self : HasClause query query
  | member {members : List (String × Json)} {name : String} {clauses : List Json} {clause : Json} :
      HasClause query (tagged "bool" (.object members)) →
      (name, .array clauses) ∈ members →
      clause ∈ clauses →
      HasClause query clause

namespace SearchQuery

variable {query : SearchQuery} {must mustNot should : List SearchQuery}

/-- What is written for a combination of queries. -/
def members (must mustNot should : List SearchQuery) : List (String × Json) :=
  (if should.isEmpty then [] else [("minimum_should_match", Json.ofNat 1)])
    ++ Wire.writeUnlessEmpty "must" .array (encodeAll must)
    ++ Wire.writeUnlessEmpty "must_not" .array (encodeAll mustNot)
    ++ Wire.writeUnlessEmpty "should" .array (encodeAll should)

theorem encode_bool :
    (bool must mustNot should).encode =
      Json.tagged "bool" (.object (members must mustNot should)) := by
  rw [encode, members]

theorem encodeAll_eq_map (queries : List SearchQuery) : encodeAll queries = queries.map encode := by
  induction queries with
  | nil =>
      rw [encodeAll, List.map_nil]
  | cons first rest inductionHypothesis =>
      rw [encodeAll, List.map_cons, inductionHypothesis]

/-- Only a combination is written under `bool`. -/
theorem exists_bool_of_encode {written : List (String × Json)}
    (same : query.encode = Json.tagged "bool" (.object written)) :
    ∃ must mustNot should, query = .bool must mustNot should ∧
      written = members must mustNot should := by
  cases query with
  | bool must mustNot should =>
      rw [encode_bool] at same
      exact ⟨must, mustNot, should, rfl, by simpa [Json.tagged] using same.symm⟩
  | _ =>
      simp [encode, Json.tagged] at same

/-- A list in a combination is the one written for `must`, `must_not` or `should`. -/
theorem exists_encodeAll_of_mem {name : String} {clauses : List Json}
    (member : (name, Json.array clauses) ∈ members must mustNot should) :
    ∃ queries, clauses = encodeAll queries := by
  have lists : ∀ queries, some (Json.array clauses) = Wire.unlessEmpty .array (encodeAll queries) →
      ∃ queries, clauses = encodeAll queries := by
    intro queries written
    exact ⟨queries, Json.array.inj (Wire.eq_of_unlessEmpty_eq_some written.symm)⟩
  simp only [members, List.mem_append, Wire.mem_writeUnlessEmpty] at member
  rcases member with ((demand | inMust) | inMustNot) | inShould
  · by_cases empty : should.isEmpty = true
    · simp [empty] at demand
    · simp [empty, Json.ofNat] at demand
  · exact lists must inMust.2
  · exact lists mustNot inMustNot.2
  · exact lists should inShould.2

/-- Every clause of a query on the wire is what some query is written as. -/
theorem exists_encode_of_hasClause {clause : Json} (has : Json.HasClause query.encode clause) :
    ∃ part : SearchQuery, clause = part.encode := by
  induction has with
  | self =>
      exact ⟨query, rfl⟩
  | member _ inMembers inClauses inductionHypothesis =>
      obtain ⟨part, written⟩ := inductionHypothesis
      obtain ⟨must, mustNot, should, rfl, rfl⟩ := exists_bool_of_encode written.symm
      obtain ⟨queries, rfl⟩ := exists_encodeAll_of_mem inMembers
      rw [encodeAll_eq_map] at inClauses
      obtain ⟨inner, _, same⟩ := List.mem_map.mp inClauses
      exact ⟨inner, same.symm⟩

/-- A combination demands a minimum exactly if it offers alternatives. -/
theorem contains_minimum_iff :
    Dictionary.contains (members must mustNot should) "minimum_should_match" = true ↔
      Dictionary.contains (members must mustNot should) "should" = true := by
  have minimum : Holds (members must mustNot should) "minimum_should_match"
      (if should.isEmpty then none else some (Json.ofNat 1)) := by
    intro json
    by_cases empty : should.isEmpty = true
    · simp [members, empty]
    · simp [members, empty]
  have alternatives : Holds (members must mustNot should) "should"
      (Wire.unlessEmpty .array (encodeAll should)) := by
    intro json
    by_cases empty : should.isEmpty = true
    · simp [members, empty]
    · simp [members, empty]
  rw [Dictionary.contains, Dictionary.contains, minimum.get?_eq, alternatives.get?_eq]
  cases should with
  | nil =>
      simp [encodeAll, Wire.unlessEmpty]
  | cons first rest =>
      simp [encodeAll, Wire.unlessEmpty]

/-- The wire form of a query loses nothing of it, and at every depth a combination demands one of
its alternatives exactly if it has any. -/
theorem encode_lossless :
    (∀ left right : SearchQuery, left.encode = right.encode → left = right) ∧
      ∀ (query : SearchQuery) (written : List (String × Json)),
        Json.HasClause query.encode (Json.tagged "bool" (.object written)) →
          (Dictionary.contains written "minimum_should_match" = true ↔
            Dictionary.contains written "should" = true) := by
  constructor
  · intro left right same
    exact encode_injective same
  · intro query written has
    obtain ⟨part, same⟩ := exists_encode_of_hasClause has
    obtain ⟨must, mustNot, should, rfl, rfl⟩ := exists_bool_of_encode same.symm
    exact contains_minimum_iff

/-- A search with alternatives below the clause for the whole of it, one of which has a bound that
is null. -/
def nestedSearch : SearchQuery :=
  .bool
    [.term "a" .null,
      .bool [] [.exist "b"] [.wildcard "c" "x*", .range "d" { Bounds.none with gt := some .null }]]
    [] []

/-- What a condition that offers one test or the negation of another one is lowered to. -/
def loweredSearch : SearchQuery :=
  SearchPlan.chainTerm
    (.link (.positive (.exist "a")) .or (.single (.negative (.exist "b"))))

theorem encode_lossless_nestedSearch :
    (loweredSearch.encode = (bool [] [] [.exist "a", .bool [] [.exist "b"] []]).encode ∧
      loweredSearch = bool [] [] [.exist "a", .bool [] [.exist "b"] []]) ∧
    ∃ written, Json.HasClause nestedSearch.encode (Json.tagged "bool" (.object written)) ∧
      Dictionary.contains written "should" = true ∧
        Dictionary.contains written "minimum_should_match" = true := by
  constructor
  · have same : loweredSearch.encode =
        (bool [] [] [.exist "a", .bool [] [.exist "b"] []]).encode := by
      decide +kernel
    exact ⟨same, encode_lossless.1 _ _ same⟩
  · let inner := SearchQuery.members [] [.exist "b"]
      [.wildcard "c" "x*", .range "d" { Bounds.none with gt := some .null }]
    have whole : nestedSearch.encode =
        Json.tagged "bool" (.object [("must", .array
          [(SearchQuery.term "a" .null).encode, Json.tagged "bool" (.object inner)])]) := by
      decide +kernel
    have has : Json.HasClause nestedSearch.encode (Json.tagged "bool" (.object inner)) := by
      rw [whole]
      exact .member .self List.mem_cons_self (List.mem_cons_of_mem _ List.mem_cons_self)
    have offers : Dictionary.contains inner "should" = true := by
      decide +kernel
    exact ⟨inner, has, offers, (encode_lossless.2 nestedSearch inner has).mpr offers⟩

end SearchQuery

end DocQuery
