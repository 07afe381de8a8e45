import DocQuery.Condition.Resolution
import DocQuery.Query.Order

/-!
# Queries

A query says what is asked for, whatever kind of store answers it. A limit of zero is none.
-/

namespace DocQuery

structure Query where
  sources : List String
  index : Option String
  condition : Option Condition
  parameters : Parameters
  columns : List String
  order : List SortField
  limit : Nat
  skip : Nat
deriving DecidableEq

namespace Query

/-- The first source, which a key-value store takes for the table. -/
def table (query : Query) : Except QueryFault String :=
  match query.sources.head? with
  | some table => .ok table
  | none => .error .missingSource

/-- The index that a key-value store reads: the one that was chosen, else the second source. -/
def storeIndex (query : Query) : Option String :=
  query.index <|> query.sources[1]?

end Query

end DocQuery
