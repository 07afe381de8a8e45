import DocQuery.Query.Basic
import DocQuery.Store.Names
import DocQuery.Store.Request
import DocQuery.Table.Schema
import DocQuery.Word

/-!
# Plans for a key-value store

A condition is split into parts that hold together. A part that tests a key attribute in a way
that the store can look up, and which no earlier part does, claims it. If the partition key is
claimed, the claiming parts make the key condition of a query and the others its filter;
otherwise everything is the filter of a scan. A group whose members all claim keys is taken
apart; any other group is one part.
-/

namespace DocQuery

inductive Method where
  | indexedQuery
  | fullScan
  | search
deriving DecidableEq, Repr

def Method.text : Method → String
  | .indexedQuery => "IndexedQuery"
  | .fullScan => "FullScan"
  | .search => "Search"

/-- A statement with the method to run it by, and the attributes that make up the key of an
item. -/
structure StorePlan where
  method : Method
  statement : Statement
  keyFields : NameSet
deriving DecidableEq

namespace StorePlan

/-- A part of a condition, with the key attribute that it claims. -/
structure Part where
  claim : Option String
  formula : Formula StoreTest

/-- Whether a pattern can be looked up in the order of a sort key. -/
def isRange (pattern : String) : Bool :=
  match Pattern.classify pattern with
  | .exact _ | .startsWith _ => true
  | _ => false

/-- Whether a predicate can be looked up by the key that its field is part of. -/
def isEligible (key : Key) (parameters : Parameters) (predicate : Predicate) :
    Except QueryFault Bool :=
  if predicate.field = key.partition then
    .ok (predicate.operator == .compare .eq)
  else if key.sort = some predicate.field then
    match predicate.operator with
    | .compare comparator => .ok (comparator != .ne)
    | .like => (predicate.pattern parameters).map isRange
    | _ => .ok false
  else
    .ok false

/-- The key attribute that a predicate claims beside those that are taken. -/
def claim? (key : Key) (parameters : Parameters) (taken : List String)
    (predicate : Predicate) : Except QueryFault (Option String) := do
  let eligible ← isEligible key parameters predicate
  return if eligible && !taken.contains predicate.field then some predicate.field else none

/-- The predicates with the key attributes that they claim, if all of them do. -/
def claimAll? (key : Key) (parameters : Parameters) (taken : List String) :
    List Predicate → Except QueryFault (Option (List (String × Predicate)))
  | [] => .ok (some [])
  | predicate :: rest => do
      match ← claim? key parameters taken predicate with
      | none => return none
      | some field =>
          let others ← claimAll? key parameters (field :: taken) rest
          return others.map ((field, predicate) :: ·)

/-- The parts of predicates that each claim a key attribute. -/
def claimedParts (parameters : Parameters) :
    List (String × Predicate) → Except QueryFault (List Part)
  | [] => .ok []
  | (field, predicate) :: rest => do
      let test ← predicate.storeTest parameters
      return ⟨some field, Formula.leaf test⟩ :: (← claimedParts parameters rest)

def wholePart (parameters : Parameters) (formula : Condition) :
    Except QueryFault (List Part) := do
  return [⟨none, ← Formula.traverse (Predicate.storeTest parameters) formula⟩]

def runParts (key : Key) (parameters : Parameters) (taken : List String) :
    List (Tree Predicate) → Except QueryFault (List Part)
  | [] => .ok []
  | [.leaf predicate] => do
      let claim ← claim? key parameters taken predicate
      return [⟨claim, Formula.leaf (← predicate.storeTest parameters)⟩]
  | [.group inner] => do
      let claims ←
        if Formula.conjunctive inner then
          claimAll? key parameters taken (Formula.atoms inner)
        else
          pure none
      match claims with
      | some claimed => claimedParts parameters claimed
      | none => wholePart parameters inner
  | first :: rest => wholePart parameters (Chain.ofList .or first rest)

def parts (key : Key) (parameters : Parameters) (taken : List String) :
    List (List (Tree Predicate)) → Except QueryFault (List Part)
  | [] => .ok []
  | run :: rest => do
      let first ← runParts key parameters taken run
      let others ← parts key parameters (taken ++ first.filterMap Part.claim) rest
      return first ++ others

def Part.demote (part : Part) : Part :=
  { part with claim := none }

/-- Whether the results come in ascending order of the sort key. Only the first entry of an
order counts, and a scan has no order. -/
def direction (order : List SortField) (key : Key) (indexed : Bool) :
    Except QueryFault (Option Bool) :=
  match order with
  | [] => .ok none
  | first :: _ =>
      match key.sort with
      | none => .error (.unsupportedOrder (.noSortKey first.field))
      | some sortKey =>
          if sortKey ≠ first.field then
            .error (.unsupportedOrder (.notSortKey sortKey first.field))
          else if indexed then .ok (some (first.direction == .asc))
          else .ok none

/-- The expressions of a statement: the clauses of its condition, each under the key attribute
that it claims, and the paths of its columns. -/
structure Wording where
  clauses : List (Option String × Formula StoreClause)
  columns : List String

/-- Names what the parts of a condition mention, part by part. -/
def nameParts : List Part → StateM Names (List (Option String × Formula StoreClause))
  | [] => return []
  | part :: rest => do
      let formula ← Formula.traverse Names.clause part.formula
      return (part.claim, formula) :: (← nameParts rest)

/-- Names what the parts of a condition mention, then the columns. -/
def wording (parts : List Part) (columns : List String) : StateM Names Wording := do
  let clauses ← nameParts parts
  return ⟨clauses, ← Names.namePaths columns⟩

namespace Wording

/-- The text of the clauses that claim key attributes. -/
def keyCondition (wording : Wording) : Option String :=
  StoreExpression.conjunction?
    ((wording.clauses.filter fun clause => clause.1.isSome).map Prod.snd)

def filter (wording : Wording) : Option String :=
  StoreExpression.conjunction?
    ((wording.clauses.filter fun clause => clause.1.isNone).map Prod.snd)

def projection (wording : Wording) : Option String :=
  if wording.columns.isEmpty then none
  else some (String.intercalate ", " wording.columns)

end Wording

/-- The columns to return: those asked for, then the key attributes that are not among them.
Nothing stands for all columns. -/
def projected (columns : List String) (keyFields : NameSet) : List String :=
  if columns.isEmpty then []
  else columns ++ keyFields.filter fun field => !columns.contains field

/-- The limit of a request, as far as it can be told to the store. -/
def limit? (limit : Nat) : Option Int :=
  if limit = 0 then none else some (min limit Word.greatestInt32 : Nat)

def compile (query : Query) (schema : Schema) (consistentRead : Bool) :
    Except QueryFault StorePlan := do
  let table ← query.table
  let index := query.storeIndex
  let key ← schema.keyOf index
  let claimed ← parts key query.parameters [] ((query.condition.map Chain.runs).getD [])
  let indexed := claimed.any fun part => part.claim == some key.partition
  if let (some index, false) := (index, indexed) then
    throw (.missingIndexKeyCondition index)
  let forward ← direction query.order key indexed
  let kept := if indexed then claimed else claimed.map Part.demote
  let keyFields := NameSet.insertAll schema.primary.fields key.fields
  let (wording, names) := (wording kept (projected query.columns keyFields)).run Names.empty
  let statement : Statement := {
    table
    index
    keyCondition := wording.keyCondition
    filter := wording.filter
    projection := wording.projection
    names := names.fields
    values := names.values
    forward
    limit := limit? query.limit
    consistentRead := some consistentRead }
  return ⟨if indexed then .indexedQuery else .fullScan, statement, keyFields⟩

end StorePlan

end DocQuery
