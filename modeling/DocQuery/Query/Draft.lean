import DocQuery.Condition.Reader
import DocQuery.Query.Positional
import DocQuery.Query.Basic

/-!
# Drafts of queries

A draft is put together step by step, and its clauses are read when it is built. Every
required clause has to hold; of the alternative clauses, if there are any, one has to hold.
-/

namespace DocQuery

/-- A condition as text, with arguments for its question marks. -/
structure Clause where
  text : String
  arguments : List Json
deriving DecidableEq

structure Draft where
  sources : List String
  index : Option String
  columns : List String
  required : List Clause
  alternatives : List Clause
  parameters : Parameters
  order : List SortField
  limit : Nat
  skip : Nat
deriving DecidableEq

namespace Draft

def withLimit (limit : Nat) : Draft :=
  ⟨[], none, [], [], [], [], [], limit, 0⟩

def empty : Draft :=
  withLimit 0

def addSource (draft : Draft) (source : String) : Draft :=
  { draft with sources := draft.sources ++ [source] }

def useIndex (draft : Draft) (index : String) : Draft :=
  { draft with index := some index }

def useColumns (draft : Draft) (columns : List String) : Draft :=
  { draft with columns }

def addRequired (draft : Draft) (text : String) (arguments : List Json) : Draft :=
  { draft with required := draft.required ++ [⟨text, arguments⟩] }

def addAlternative (draft : Draft) (text : String) (arguments : List Json) : Draft :=
  { draft with alternatives := draft.alternatives ++ [⟨text, arguments⟩] }

def bind (draft : Draft) (name : String) (value : Json) : Draft :=
  { draft with parameters := draft.parameters.insert name value }

/-- The parameter that holds the candidates for a field. -/
def candidatesName (field : String) : String :=
  "in_" ++ String.ofList (field.toList.map fun c => if c.isAlphanum then c else '_')

/-- Adds the clause that a field has one of the values. -/
def addMembership (draft : Draft) (field : String) (values : List Json) : Draft :=
  let name := candidatesName field
  (draft.bind name (.array values)).addRequired (field ++ " IN " ++ parameterText name) []

def orderBy (draft : Draft) (field : String) (direction : Direction) : Draft :=
  { draft with order := draft.order ++ [⟨field, direction⟩] }

/-- Sets the limit and the number of results to skip. -/
def window (draft : Draft) (limit skip : Nat) : Draft :=
  { draft with limit, skip }

open Positional (Bindings)

/-- Reads clauses in order, binding their arguments. -/
def readClauses : List Clause → Bindings → Except QueryFault (List Condition × Bindings)
  | [], bindings => .ok ([], bindings)
  | clause :: rest, bindings =>
      match Positional.expand clause.text clause.arguments bindings with
      | .error fault => .error (.badSyntax fault)
      | .ok (text, bindings) => do
          let condition ← Condition.parse text
          let (others, bindings) ← readClauses rest bindings
          return (condition :: others, bindings)

/-- A condition and those after it, attached to each other. -/
def joinAll (join : Join) (first : Condition) : List Condition → Condition
  | [] => first
  | next :: rest => first.append join (joinAll join next rest)

/-- A condition as a single member of a chain: in parentheses unless it has one member. -/
def asMember (condition : Condition) : Condition :=
  if condition.isSingle then condition else Formula.group condition

/-- The condition that all required ones hold and, if there are alternatives, one of them. -/
def combine : List Condition → List Condition → Option Condition
  | [], [] => none
  | first :: rest, [] => some (joinAll .and first rest)
  | [], first :: rest => some (joinAll .or (asMember first) (rest.map asMember))
  | first :: rest, other :: others =>
      some ((joinAll .and first rest).append .and
        (asMember (joinAll .or (asMember other) (others.map asMember))))

def build (draft : Draft) : Except QueryFault Query := do
  let (required, bindings) ← readClauses draft.required ⟨0, draft.parameters⟩
  let (alternatives, bindings) ← readClauses draft.alternatives bindings
  return {
    sources := draft.sources
    index := draft.index
    condition := combine required alternatives
    parameters := bindings.parameters
    columns := draft.columns
    order := draft.order
    limit := draft.limit
    skip := draft.skip }

end Draft

end DocQuery
