/-!
# Chains of joined items

A chain is a non-empty sequence in which every item but the first is joined to the one before
it by `AND` or `OR`. Neighbours joined by `OR` form a run, and the runs of a chain are meant
together: `OR` binds its two neighbours, `AND` stands between runs.
-/

namespace DocQuery

inductive Join where
  | and
  | or
deriving DecidableEq, Repr

def Join.text : Join → String
  | .and => "AND"
  | .or => "OR"

/-- A non-empty sequence of items with a join between neighbours. -/
inductive Chain (α : Type) where
  | single (item : α)
  | link (item : α) (join : Join) (rest : Chain α)
deriving DecidableEq, Repr

namespace Chain

variable {α β : Type}

/-- The second chain attached to the end of the first. -/
def append (join : Join) : Chain α → Chain α → Chain α
  | single item, tail => link item join tail
  | link item next rest, tail => link item next (append join rest tail)

/-- The items in order. -/
def items : Chain α → List α
  | single item => [item]
  | link item _ rest => item :: rest.items

/-- The items in order, each with the join in front of it; `before` stands in front of the
first. -/
def joinedFrom (before : Option Join) : Chain α → List (Option Join × α)
  | single item => [(before, item)]
  | link item join rest => (before, item) :: rest.joinedFrom (some join)

/-- The items in order, each with the join in front of it. -/
def joined (chain : Chain α) : List (Option Join × α) :=
  chain.joinedFrom none

/-- Whether there is one item only. -/
def isSingle : Chain α → Bool
  | single _ => true
  | link .. => false

/-- The runs: maximal stretches of items joined by `OR`. -/
def runs : Chain α → List (List α)
  | single item => [[item]]
  | link item .and rest => [item] :: rest.runs
  | link item .or rest =>
      match rest.runs with
      | [] => [[item]]
      | run :: others => (item :: run) :: others

def map (f : α → β) : Chain α → Chain β
  | single item => single (f item)
  | link item join rest => link (f item) join (rest.map f)

/-- The chain of several items with one join throughout. -/
def ofList (join : Join) (first : α) : List α → Chain α
  | [] => single first
  | next :: rest => link first join (ofList join next rest)

/-- A chain of truth values is true when every run has a true member. -/
def holds (chain : Chain Bool) : Bool :=
  chain.runs.all fun run => run.any id

/-- Whether every item is true and no two are joined by `OR`. -/
def conjunctive : Chain Bool → Bool
  | single item => item
  | link item join rest => item && join == .and && rest.conjunctive

/-- A chain of texts, with the joins written between them. -/
def text : Chain String → String
  | single item => item
  | link item join rest => item ++ " " ++ join.text ++ " " ++ rest.text

theorem runs_ne_nil (chain : Chain α) : chain.runs ≠ [] := by
  cases chain with
  | single item => simp [runs]
  | link item join rest =>
      cases join
      · simp [runs]
      · unfold runs; split <;> simp

end Chain

end DocQuery
