import DocQuery.Condition.Chain

/-!
# Formulas over atoms

A formula is a chain of trees; a tree is an atom or a formula in parentheses. What is done with
a formula is either a `fold`, which computes a result bottom up, or a `traverse`, which visits
the atoms from left to right and keeps the shape.
-/

namespace DocQuery

inductive Tree (α : Type) where
  | leaf (atom : α)
  | group (inner : Chain (Tree α))

abbrev Formula (α : Type) := Chain (Tree α)

namespace Tree

variable {α β : Type}

mutual

def decEq [DecidableEq α] : (left right : Tree α) → Decidable (left = right)
  | .leaf a, .leaf b => decidable_of_iff (a = b) (by simp)
  | .group a, .group b =>
      match decEqChain a b with
      | isTrue same => isTrue (by rw [same])
      | isFalse different => isFalse (by simpa using different)
  | .leaf _, .group _ => isFalse (by simp)
  | .group _, .leaf _ => isFalse (by simp)

def decEqChain [DecidableEq α] : (left right : Chain (Tree α)) → Decidable (left = right)
  | .single a, .single b =>
      match decEq a b with
      | isTrue same => isTrue (by rw [same])
      | isFalse different => isFalse (by simpa using different)
  | .link a join as, .link b other bs =>
      match decEq a b, decEqChain as bs with
      | isTrue first, isTrue rest => decidable_of_iff (join = other) (by simp [first, rest])
      | isFalse first, _ => isFalse (by simp [first])
      | _, isFalse rest => isFalse (by simp [rest])
  | .single _, .link .. => isFalse (by simp)
  | .link .., .single _ => isFalse (by simp)

end

instance [DecidableEq α] : DecidableEq (Tree α) := decEq

mutual

/-- The result for a tree from the results for its atoms and groups. -/
def fold (onLeaf : α → β) (onGroup : Chain β → β) : Tree α → β
  | .leaf atom => onLeaf atom
  | .group inner => onGroup (foldChain onLeaf onGroup inner)

def foldChain (onLeaf : α → β) (onGroup : Chain β → β) : Chain (Tree α) → Chain β
  | .single node => .single (node.fold onLeaf onGroup)
  | .link node join rest =>
      .link (node.fold onLeaf onGroup) join (foldChain onLeaf onGroup rest)

end

mutual

def traverse {m : Type → Type} [Monad m] (visit : α → m β) : Tree α → m (Tree β)
  | .leaf atom => do return .leaf (← visit atom)
  | .group inner => do return .group (← traverseChain visit inner)

/-- Visits the atoms of a chain from left to right. -/
def traverseChain {m : Type → Type} [Monad m] (visit : α → m β) :
    Chain (Tree α) → m (Chain (Tree β))
  | .single node => do return .single (← node.traverse visit)
  | .link node join rest => do
      let node ← node.traverse visit
      return .link node join (← traverseChain visit rest)

end

end Tree

namespace Formula

variable {α β : Type}

/-- The result for a formula, which is treated like a group. -/
def fold (onLeaf : α → β) (onGroup : Chain β → β) (formula : Formula α) : β :=
  onGroup (Tree.foldChain onLeaf onGroup formula)

def traverse {m : Type → Type} [Monad m] (visit : α → m β) (formula : Formula α) :
    m (Formula β) :=
  Tree.traverseChain visit formula

/-- The truth value of a formula, given that of its atoms. -/
def holds (truth : α → Bool) (formula : Formula α) : Bool :=
  formula.fold truth Chain.holds

def atoms (formula : Formula α) : List α :=
  formula.fold (fun atom => [atom]) fun members => members.items.flatten

/-- Whether no two members are joined by `OR`, at any depth. -/
def conjunctive (formula : Formula α) : Bool :=
  formula.fold (fun _ => true) Chain.conjunctive

def leaf (atom : α) : Formula α :=
  .single (.leaf atom)

def group (inner : Formula α) : Formula α :=
  .single (.group inner)

end Formula

end DocQuery
