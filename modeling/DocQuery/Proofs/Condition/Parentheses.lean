import DocQuery.Proofs.Condition.Formula

/-!
# Parentheses around single atoms

Parentheses around one atom add nothing to a formula. `bare` takes them away wherever they stand,
so that two formulas with the same bare form differ in such parentheses only. A fold whose step for
groups leaves the result of a lone atom as it is does not see the difference, and a traversal may
take the parentheses away before or after it visits the atoms.
-/

namespace DocQuery

variable {α β : Type}

namespace Chain

theorem Corresponds.map_eq_map {Related : α → α → Prop} {chain images : Chain α}
    (corresponds : Corresponds Related chain images) (f : α → β)
    (respects : ∀ item ∈ chain.items, ∀ image, Related item image → f item = f image) :
    chain.map f = images.map f := by
  have same : Corresponds (fun item image => item = id image) (chain.map f) (images.map f) :=
    corresponds.map f f respects
  rw [same.eq_map, map_id]

theorem map_map {γ : Type} (f : β → γ) (g : α → β) (chain : Chain α) :
    (chain.map g).map f = chain.map fun item => f (g item) := by
  induction chain with
  | single item =>
      rfl
  | link item join rest inductionHypothesis =>
      simp only [map, inductionHypothesis]

theorem map_congr {f g : α → β} {chain : Chain α}
    (same : ∀ item ∈ chain.items, f item = g item) : chain.map f = chain.map g := by
  induction chain with
  | single item =>
      simp [map, same item (by simp [items])]
  | link item join rest inductionHypothesis =>
      have restSame := inductionHypothesis fun other member =>
        same other (List.mem_cons_of_mem item member)
      simp [map, same item (by simp [items]), restSame]

theorem map_ofList (f : α → β) (join : Join) (first : α) (rest : List α) :
    (ofList join first rest).map f = ofList join (f first) (rest.map f) := by
  induction rest generalizing first with
  | nil =>
      rfl
  | cons next others inductionHypothesis =>
      simp only [ofList, map, List.map_cons, inductionHypothesis]

end Chain

namespace Tree

/-- The tree in so many pairs of parentheses. -/
def enclosed : Nat → Tree α → Tree α
  | 0, tree => tree
  | depth + 1, tree => .group (.single (enclosed depth tree))

/-- The second tree is the first one with parentheses put around its atoms, around each of them as
many as one likes. -/
inductive Wraps : Tree α → Tree α → Prop
  | leaf (atom : α) (depth : Nat) :
      Wraps (.leaf atom) (enclosed depth (.leaf atom))
  | group {inner wrapped : Chain (Tree α)} :
      Chain.Corresponds Wraps inner wrapped →
      Wraps (.group inner) (.group wrapped)

/-- The tree with these members, which is the member itself if that is an atom alone. -/
def ofMembers : Chain (Tree α) → Tree α
  | .single (.leaf atom) => .leaf atom
  | members => .group members

/-- The tree without the parentheses around single atoms. -/
def bare (tree : Tree α) : Tree α :=
  tree.fold .leaf ofMembers

@[simp]
theorem bare_leaf (atom : α) : (Tree.leaf atom).bare = .leaf atom := by
  simp [bare]

theorem bare_group (inner : Chain (Tree α)) :
    (Tree.group inner).bare = ofMembers (inner.map bare) := by
  rw [bare, fold_group]
  rfl

/-- A tree is the leaf of its members or their group. -/
theorem ofMembers_cases (members : Chain (Tree α)) :
    (∃ atom, members = .single (.leaf atom) ∧ ofMembers members = .leaf atom) ∨
      ofMembers members = .group members := by
  cases members with
  | single node =>
      cases node with
      | leaf atom =>
          exact .inl ⟨atom, rfl, rfl⟩
      | group inner =>
          exact .inr rfl
  | link node join rest =>
      exact .inr rfl

theorem bare_enclosed (depth : Nat) (atom : α) :
    (enclosed depth (Tree.leaf atom)).bare = .leaf atom := by
  induction depth with
  | zero =>
      rw [enclosed, bare_leaf]
  | succ depth inductionHypothesis =>
      rw [enclosed, bare_group, Chain.map, inductionHypothesis]
      rfl

theorem Wraps.bare_eq {tree wrapped : Tree α} (wraps : Wraps tree wrapped) :
    tree.bare = wrapped.bare := by
  induction tree using inductOn generalizing wrapped with
  | leaf atom =>
      cases wraps with
      | leaf _ depth =>
          rw [bare_enclosed, bare_leaf]
  | group inner inductionHypothesis =>
      cases wraps with
      | group members =>
          rw [bare_group, bare_group, members.map_eq_map bare]
          intro node member other related
          exact inductionHypothesis node member related

theorem fold_bare {onLeaf : α → β} {onGroup : Chain β → β}
    (alone : ∀ atom, onGroup (.single (onLeaf atom)) = onLeaf atom) (tree : Tree α) :
    tree.bare.fold onLeaf onGroup = tree.fold onLeaf onGroup := by
  induction tree using inductOn with
  | leaf atom =>
      rw [bare_leaf]
  | group inner inductionHypothesis =>
      have members : (inner.map bare).map (fold onLeaf onGroup) =
          inner.map (fold onLeaf onGroup) := by
        rw [Chain.map_map]
        exact Chain.map_congr inductionHypothesis
      rw [fold_group, ← members, bare_group]
      rcases ofMembers_cases (inner.map bare) with ⟨atom, single, lone⟩ | grouped
      · rw [lone, single, fold_leaf, Chain.map, fold_leaf, alone]
      · rw [grouped, fold_group]

section Traversal

variable {m : Type → Type} [Monad m] [LawfulMonad m] (visit : α → m β)

theorem traverse_ofMembers (members : Chain (Tree α)) :
    (ofMembers members).traverse visit = ofMembers <$> traverseChain visit members := by
  cases members with
  | single node =>
      cases node with
      | leaf atom =>
          simp [ofMembers, traverse, traverseChain]
      | group inner =>
          simp [ofMembers, traverse, traverseChain]
  | link node join rest =>
      simp [ofMembers, traverse, traverseChain]

theorem traverseChain_map {change : Tree α → Tree α} {changeImage : Tree β → Tree β}
    {chain : Chain (Tree α)}
    (commutes : ∀ node ∈ chain.items,
      (change node).traverse visit = changeImage <$> node.traverse visit) :
    traverseChain visit (chain.map change) =
      Chain.map changeImage <$> traverseChain visit chain := by
  induction chain with
  | single node =>
      have first := commutes node (by simp [Chain.items])
      simp [Chain.map, traverseChain, first]
  | link node join rest inductionHypothesis =>
      have first := commutes node (by simp [Chain.items])
      have others := inductionHypothesis fun other member =>
        commutes other (List.mem_cons_of_mem node member)
      simp [Chain.map, traverseChain, first, others]

theorem traverse_bare (tree : Tree α) :
    tree.bare.traverse visit = bare <$> tree.traverse visit := by
  induction tree using inductOn with
  | leaf atom =>
      simp [traverse]
  | group inner inductionHypothesis =>
      rw [bare_group, traverse_ofMembers, traverseChain_map visit inductionHypothesis]
      simp [traverse, bare_group]

end Traversal

end Tree

namespace Formula

/-- The second formula is the first one with parentheses put around its atoms. -/
def Wraps (formula wrapped : Formula α) : Prop :=
  Chain.Corresponds Tree.Wraps formula wrapped

/-- The formula without the parentheses around single atoms. -/
def bare (formula : Formula α) : Formula α :=
  formula.map Tree.bare

theorem Wraps.bare_eq {formula wrapped : Formula α} (wraps : Wraps formula wrapped) :
    bare formula = bare wrapped :=
  Chain.Corresponds.map_eq_map wraps Tree.bare fun _ _ _ related => related.bare_eq

theorem foldChain_bare {onLeaf : α → β} {onGroup : Chain β → β}
    (alone : ∀ atom, onGroup (.single (onLeaf atom)) = onLeaf atom) (formula : Formula α) :
    Tree.foldChain onLeaf onGroup formula.bare = Tree.foldChain onLeaf onGroup formula := by
  rw [Tree.foldChain_eq_map, Tree.foldChain_eq_map, bare, Chain.map_map]
  exact Chain.map_congr fun node _ => Tree.fold_bare alone node

theorem atoms_bare (formula : Formula α) : formula.bare.atoms = formula.atoms := by
  rw [atoms, atoms, fold, fold, foldChain_bare]
  intro atom
  rfl

theorem conjunctive_bare (formula : Formula α) : formula.bare.conjunctive = formula.conjunctive := by
  rw [conjunctive, conjunctive, fold, fold, foldChain_bare]
  intro atom
  rfl

theorem isSingle_bare (formula : Formula α) : formula.bare.isSingle = formula.isSingle := by
  cases formula <;> rfl

theorem traverse_bare {m : Type → Type} [Monad m] [LawfulMonad m] (visit : α → m β)
    (formula : Formula α) :
    Formula.traverse visit formula.bare = Formula.bare <$> formula.traverse visit :=
  Tree.traverseChain_map visit fun node _ => Tree.traverse_bare visit node

end Formula

end DocQuery
