import DocQuery.Condition.Pattern
import DocQuery.Condition.Test
import DocQuery.Search.Basic
import DocQuery.Query.Basic

/-!
# Plans for a search engine

Each predicate becomes a term or the negation of one. A run of one member has to hold or, if it
is negated, must not hold. A run of several members offers alternatives: they stand in the
`should` of the chain if it is the only such run, and otherwise in one of their own.
-/

namespace DocQuery

structure SearchClause where
  term : SearchQuery
  negated : Bool

namespace SearchClause

def positive (term : SearchQuery) : SearchClause :=
  ⟨term, false⟩

def negative (term : SearchQuery) : SearchClause :=
  ⟨term, true⟩

/-- The range that a comparison with a bound admits. -/
def range (field : String) (bounds : Bounds) : SearchClause :=
  positive (.range field bounds)

def ofTest (field : String) : Test → SearchClause
  | .compare .eq value => positive (.term field value)
  | .compare .ne value => negative (.term field value)
  | .compare .gt value => range field { Bounds.none with gt := some value }
  | .compare .ge value => range field { Bounds.none with gte := some value }
  | .compare .lt value => range field { Bounds.none with lt := some value }
  | .compare .le value => range field { Bounds.none with lte := some value }
  | .isIn candidates => positive (.terms field candidates)
  | .notIn candidates => negative (.terms field candidates)
  | .isNotNull => positive (.exist field)
  | .isNull => negative (.exist field)
  | .like pattern =>
      match Pattern.classify pattern with
      | .exact text => positive (.term field (.string text))
      | _ =>
          let wildcards := pattern.toList.map fun c => if c = '%' then '*' else c
          positive (.wildcard field (String.ofList wildcards))

def alternative (clause : SearchClause) : SearchQuery :=
  if clause.negated then .bool [] [clause.term] [] else clause.term

end SearchClause

namespace SearchPlan

/-- The terms that a run puts into the `must` of its chain; `alone` says that the run is the
only one with several members. -/
def mustOf (alone : Bool) : List SearchClause → List SearchQuery
  | [clause] => if clause.negated then [] else [clause.term]
  | run => if alone then [] else [.bool [] [] (run.map SearchClause.alternative)]

/-- The terms that a run puts into the `must_not` of its chain. -/
def mustNotOf : List SearchClause → List SearchQuery
  | [clause] => if clause.negated then [clause.term] else []
  | _ => []

/-- The terms that a run puts into the `should` of its chain. -/
def shouldOf (alone : Bool) : List SearchClause → List SearchQuery
  | [_] => []
  | run => if alone then run.map SearchClause.alternative else []

def chainTerm (members : Chain SearchClause) : SearchQuery :=
  let runs := members.runs
  let alone := (runs.filter fun run => 1 < run.length).length == 1
  .bool (runs.flatMap (mustOf alone)) (runs.flatMap mustNotOf) (runs.flatMap (shouldOf alone))

def clause (parameters : Parameters) (predicate : Predicate) :
    Except QueryFault SearchClause :=
  (predicate.test parameters).map (SearchClause.ofTest predicate.field)

def term (parameters : Parameters) (condition : Condition) : Except QueryFault SearchQuery := do
  let clauses ← Formula.traverse (clause parameters) condition
  return Formula.fold id (fun members => SearchClause.positive (chainTerm members)) clauses
    |>.term

/-- A number, unless it is zero. -/
def positive? (number : Nat) : Option Nat :=
  if number = 0 then none else some number

/-- Compiles a query for a search engine. All sources are searched. -/
def compile (query : Query) : Except QueryFault Search := do
  if query.sources.isEmpty then
    throw .missingSource
  let term ←
    match query.condition with
    | some condition => some <$> SearchPlan.term query.parameters condition
    | none => pure none
  return {
    index := String.intercalate "," query.sources
    query := term
    sort := query.order
    source := query.columns
    first := positive? query.skip
    size := positive? query.limit }

end SearchPlan

end DocQuery
