import DocQuery.Search.Query

/-!
# Reading the JSON of a search query

A search engine reads a query as JSON. Here that form is read clause by clause, so that what is
computed from it does not rely on how the query was made: a clause tests a field, or combines
others by `bool`, whose alternatives in `should` count only if a minimum of them is demanded.
-/

namespace DocQuery

/-- A test of a field as it stands in a query. -/
inductive SearchLeaf where
  | term (field : String) (value : Json)
  | terms (field : String) (values : List Json)
  | range (field : String) (bounds : Json)
  | exist (field : String)
  | wildcard (field : String) (pattern : String)
deriving DecidableEq

/-- The results for the members of a `bool` clause, and whether one of `should` is demanded. -/
structure BoolClause (β : Type) where
  must : List β
  mustNot : List β
  should : List β
  demanded : Bool

namespace BoolClause

def empty {β : Type} : BoolClause β :=
  ⟨[], [], [], false⟩

/-- Whether a `bool` clause is true. -/
def holds (clause : BoolClause Bool) : Bool :=
  clause.must.all id && !clause.mustNot.any id && (!clause.demanded || clause.should.any id)

def contents {β : Type} (clause : BoolClause (List β)) : List β :=
  clause.must.flatten ++ clause.mustNot.flatten ++ clause.should.flatten

end BoolClause

namespace SearchLeaf

/-- Reads a test of a field, from the word for its kind and what stands under it. -/
def read? : String → Json → Option SearchLeaf
  | "term", .object [(field, value)] => some (.term field value)
  | "terms", .object [(field, .array values)] => some (.terms field values)
  | "range", .object [(field, bounds)] => some (.range field bounds)
  | "exists", .object [("field", .string field)] => some (.exist field)
  | "wildcard", .object [(field, .object [("value", .string pattern)])] =>
      some (.wildcard field pattern)
  | _, _ => none

end SearchLeaf

namespace Json

variable {β : Type}

mutual

/-- Reads a clause, and computes a result bottom up. -/
def readClause? (onLeaf : SearchLeaf → β) (onBool : BoolClause β → β) : Json → Option β
  | .object [("bool", .object members)] => do
      return onBool (← readMembers? onLeaf onBool members)
  | .object [(kind, body)] => (SearchLeaf.read? kind body).map onLeaf
  | _ => none

def readMembers? (onLeaf : SearchLeaf → β) (onBool : BoolClause β → β) :
    List (String × Json) → Option (BoolClause β)
  | [] => some .empty
  | ("must", .array clauses) :: rest => do
      let must ← readClauses? onLeaf onBool clauses
      return { ← readMembers? onLeaf onBool rest with must }
  | ("must_not", .array clauses) :: rest => do
      let mustNot ← readClauses? onLeaf onBool clauses
      return { ← readMembers? onLeaf onBool rest with mustNot }
  | ("should", .array clauses) :: rest => do
      let should ← readClauses? onLeaf onBool clauses
      return { ← readMembers? onLeaf onBool rest with should }
  | ("minimum_should_match", .number (.integer 1)) :: rest => do
      return { ← readMembers? onLeaf onBool rest with demanded := true }
  | _ => none

def readClauses? (onLeaf : SearchLeaf → β) (onBool : BoolClause β → β) :
    List Json → Option (List β)
  | [] => some []
  | clause :: rest => do
      let first ← readClause? onLeaf onBool clause
      return first :: (← readClauses? onLeaf onBool rest)

end

/-- Whether a query is true, if it can be read. -/
def searchTruth? (truth : SearchLeaf → Bool) (query : Json) : Option Bool :=
  query.readClause? truth BoolClause.holds

/-- The tests in a query, if it can be read. -/
def searchLeaves? (query : Json) : Option (List SearchLeaf) :=
  query.readClause? (fun leaf => [leaf]) BoolClause.contents

end Json

namespace SearchQuery

variable {β : Type}

mutual

/-- The result for a query from the results for its tests and combinations. -/
def fold (onLeaf : SearchLeaf → β) (onBool : BoolClause β → β) : SearchQuery → β
  | .term field value => onLeaf (.term field value)
  | .terms field values => onLeaf (.terms field values)
  | .range field bounds => onLeaf (.range field bounds.encode)
  | .exist field => onLeaf (.exist field)
  | .wildcard field pattern => onLeaf (.wildcard field pattern)
  | .bool must mustNot should =>
      onBool ⟨foldAll onLeaf onBool must, foldAll onLeaf onBool mustNot,
        foldAll onLeaf onBool should, !should.isEmpty⟩

def foldAll (onLeaf : SearchLeaf → β) (onBool : BoolClause β → β) : List SearchQuery → List β
  | [] => []
  | first :: rest => first.fold onLeaf onBool :: foldAll onLeaf onBool rest

end

theorem foldAll_eq_map (onLeaf : SearchLeaf → β) (onBool : BoolClause β → β)
    (queries : List SearchQuery) :
    foldAll onLeaf onBool queries = queries.map (fold onLeaf onBool) := by
  induction queries with
  | nil =>
      simp [foldAll]
  | cons first rest inductionHypothesis =>
      simp [foldAll, inductionHypothesis]

variable (onLeaf : SearchLeaf → β) (onBool : BoolClause β → β)

mutual

/-- What is read from the wire form of a query is what the query says. -/
theorem readClause?_encode : ∀ query : SearchQuery,
    query.encode.readClause? onLeaf onBool = some (query.fold onLeaf onBool)
  | .term field value => by
      simp [encode, Json.tagged, Json.readClause?, SearchLeaf.read?, fold]
  | .terms field values => by
      simp [encode, Json.tagged, Json.readClause?, SearchLeaf.read?, fold]
  | .range field bounds => by
      simp [encode, Json.tagged, Json.readClause?, SearchLeaf.read?, fold]
  | .exist field => by
      simp [encode, Json.tagged, Json.readClause?, SearchLeaf.read?, fold]
  | .wildcard field pattern => by
      simp [encode, Json.tagged, Json.readClause?, SearchLeaf.read?, fold]
  | .bool must mustNot should => by
      have mustRead := readClauses?_encodeAll must
      have mustNotRead := readClauses?_encodeAll mustNot
      have shouldRead := readClauses?_encodeAll should
      -- a list without members is not written, and the rest is read past it
      cases must <;> cases mustNot <;> cases should <;>
        simp_all [encode, encodeAll, Json.tagged, Json.ofNat, Wire.writeUnlessEmpty,
          Json.readClause?, Json.readMembers?, BoolClause.empty, fold, foldAll]

theorem readClauses?_encodeAll : ∀ queries : List SearchQuery,
    Json.readClauses? onLeaf onBool (encodeAll queries) = some (foldAll onLeaf onBool queries)
  | [] => by
      simp [encodeAll, Json.readClauses?, foldAll]
  | first :: rest => by
      simp [encodeAll, Json.readClauses?, foldAll, readClause?_encode first,
        readClauses?_encodeAll rest]

end

end SearchQuery

end DocQuery
