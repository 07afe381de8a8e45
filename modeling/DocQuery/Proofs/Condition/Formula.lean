import DocQuery.Condition.Formula
import DocQuery.Proofs.Fallible
import DocQuery.Proofs.Related

/-!
# Chains and formulas, item by item

Two chains correspond when they have the same joins and their items are related one by one, and
two trees correspond when they have the same shape and their atoms are related. A fold respects
every relation that its two steps respect, and a successful traversal relates each atom to its
image. What is proved about chains of trees is assembled from these two facts.
-/

namespace DocQuery

variable {α β γ δ : Type}

namespace Chain

/-- Two chains with the same joins and related items. -/
inductive Corresponds (Related : α → β → Prop) : Chain α → Chain β → Prop
  | single {item : α} {image : β} :
      Related item image →
      Corresponds Related (.single item) (.single image)
  | link {item : α} {image : β} (join : Join) {rest : Chain α} {images : Chain β} :
      Related item image →
      Corresponds Related rest images →
      Corresponds Related (.link item join rest) (.link image join images)

theorem Corresponds.runs
    {Related : α → β → Prop} {chain : Chain α} {images : Chain β}
    (corresponds : Corresponds Related chain images) :
    List.Forall₂ (List.Forall₂ Related) chain.runs images.runs := by
  induction corresponds with
  | single related =>
      exact .cons (.cons related .nil) .nil
  | @link _ _ join rest images related _ inductionHypothesis =>
      cases join with
      | and =>
          exact .cons (.cons related .nil) inductionHypothesis
      | or =>
          simp only [Chain.runs]
          generalize rest.runs = restRuns at inductionHypothesis
          generalize images.runs = imageRuns at inductionHypothesis
          cases inductionHypothesis with
          | nil =>
              exact .cons (.cons related .nil) .nil
          | cons firstRun otherRuns =>
              exact .cons (.cons related firstRun) otherRuns

theorem Corresponds.items
    {Related : α → β → Prop} {chain : Chain α} {images : Chain β}
    (corresponds : Corresponds Related chain images) :
    List.Forall₂ Related chain.items images.items := by
  induction corresponds with
  | single related =>
      exact .cons related .nil
  | link _ related _ inductionHypothesis =>
      exact .cons related inductionHypothesis

theorem Corresponds.map
    {Related : α → β → Prop} {Image : γ → δ → Prop}
    {chain : Chain α} {images : Chain β}
    (corresponds : Corresponds Related chain images) (left : α → γ) (right : β → δ)
    (respects : ∀ item ∈ chain.items, ∀ image,
      Related item image → Image (left item) (right image)) :
    Corresponds Image (chain.map left) (images.map right) := by
  induction corresponds with
  | single related =>
      exact .single (respects _ (by simp [Chain.items]) _ related)
  | link join related _ inductionHypothesis =>
      refine .link join (respects _ (by simp [Chain.items]) _ related) ?_
      apply inductionHypothesis
      intro item member
      exact respects item (by simp [Chain.items, member])

theorem map_id (chain : Chain α) : chain.map id = chain := by
  induction chain with
  | single item =>
      rfl
  | link item join rest inductionHypothesis =>
      simp [Chain.map, inductionHypothesis]

theorem Corresponds.imp
    {Related Image : α → β → Prop} {chain : Chain α} {images : Chain β}
    (corresponds : Corresponds Related chain images)
    (respects : ∀ item ∈ chain.items, ∀ image, Related item image → Image item image) :
    Corresponds Image chain images := by
  simpa only [map_id] using corresponds.map id id respects

theorem Corresponds.trans
    {First : α → β → Prop} {Second : β → γ → Prop}
    {chain : Chain α} {middle : Chain β} {images : Chain γ}
    (first : Corresponds First chain middle) (second : Corresponds Second middle images) :
    Corresponds (fun item image => ∃ between, First item between ∧ Second between image)
      chain images := by
  induction first generalizing images with
  | single related =>
      cases second with
      | single further =>
          exact .single ⟨_, related, further⟩
  | link join related _ inductionHypothesis =>
      cases second with
      | link _ further others =>
          exact .link join ⟨_, related, further⟩ (inductionHypothesis others)

theorem Corresponds.eq_map {f : β → α} {chain : Chain α} {images : Chain β}
    (corresponds : Corresponds (fun item image => item = f image) chain images) :
    chain = images.map f := by
  induction corresponds with
  | single same =>
      rw [same, Chain.map]
  | link join same _ inductionHypothesis =>
      rw [same, inductionHypothesis, Chain.map]

theorem exists_corresponds {Related : α → β → Prop} {chain : Chain α}
    (related : ∀ item ∈ chain.items, ∃ image, Related item image) :
    ∃ images, Corresponds Related chain images := by
  induction chain with
  | single item =>
      obtain ⟨image, itemRelated⟩ := related item (by simp [Chain.items])
      exact ⟨.single image, .single itemRelated⟩
  | link item join rest inductionHypothesis =>
      obtain ⟨image, itemRelated⟩ := related item (by simp [Chain.items])
      obtain ⟨images, restRelated⟩ := inductionHypothesis fun other member =>
        related other (by simp [Chain.items, member])
      exact ⟨.link image join images, .link join itemRelated restRelated⟩

theorem items_map (f : α → β) (chain : Chain α) : (chain.map f).items = chain.items.map f := by
  induction chain with
  | single item =>
      rfl
  | link item join rest inductionHypothesis =>
      simp [Chain.map, Chain.items, inductionHypothesis]

theorem runs_map (f : α → β) (chain : Chain α) :
    (chain.map f).runs = chain.runs.map (List.map f) := by
  induction chain with
  | single item =>
      rfl
  | link item join rest inductionHypothesis =>
      cases join with
      | and =>
          simp [Chain.map, Chain.runs, inductionHypothesis]
      | or =>
          simp only [Chain.map, Chain.runs, inductionHypothesis]
          cases rest.runs <;> simp

/-- An item joined by `OR` belongs to the first run of the items behind it. -/
theorem runs_link_or (item : α) (rest : Chain α) :
    ∃ run others, rest.runs = run :: others ∧
      (link item .or rest).runs = (item :: run) :: others := by
  obtain ⟨run, others, restRuns⟩ := List.exists_cons_of_ne_nil rest.runs_ne_nil
  refine ⟨run, others, restRuns, ?_⟩
  rw [Chain.runs, restRuns]

theorem ne_nil_of_mem_runs {chain : Chain α} {run : List α}
    (member : run ∈ chain.runs) : run ≠ [] := by
  induction chain with
  | single item =>
      simp_all [Chain.runs]
  | link item join rest inductionHypothesis =>
      cases join with
      | and =>
          rcases List.mem_cons.mp member with rfl | later
          · simp
          · exact inductionHypothesis later
      | or =>
          obtain ⟨firstRun, otherRuns, restRuns, linkRuns⟩ := runs_link_or item rest
          rw [linkRuns] at member
          rcases List.mem_cons.mp member with rfl | later
          · simp
          · apply inductionHypothesis
            rw [restRuns]
            exact List.mem_cons_of_mem firstRun later

theorem flatten_runs (chain : Chain α) : chain.runs.flatten = chain.items := by
  induction chain with
  | single item =>
      rfl
  | link item join rest inductionHypothesis =>
      cases join with
      | and =>
          simp [Chain.runs, Chain.items, inductionHypothesis]
      | or =>
          obtain ⟨firstRun, otherRuns, restRuns, linkRuns⟩ := runs_link_or item rest
          rw [linkRuns, Chain.items, ← inductionHypothesis, restRuns]
          rfl

theorem runs_ofList_or (first : α) (rest : List α) :
    (ofList .or first rest).runs = [first :: rest] := by
  induction rest generalizing first with
  | nil =>
      rfl
  | cons next others inductionHypothesis =>
      simp [ofList, Chain.runs, inductionHypothesis]

theorem items_append (join : Join) (first second : Chain α) :
    (first.append join second).items = first.items ++ second.items := by
  induction first with
  | single item =>
      rfl
  | link item next rest inductionHypothesis =>
      simp [append, items, inductionHypothesis]

/-- Chains attached by `AND` keep their runs. -/
theorem runs_append_and (first second : Chain α) :
    (first.append .and second).runs = first.runs ++ second.runs := by
  induction first with
  | single item =>
      rfl
  | link item next rest inductionHypothesis =>
      cases next with
      | and =>
          simp [append, Chain.runs, inductionHypothesis]
      | or =>
          obtain ⟨firstRun, otherRuns, restRuns, linkRuns⟩ := runs_link_or item rest
          rw [linkRuns, append, Chain.runs, inductionHypothesis, restRuns]
          rfl

/-- A chain joined by `AND` throughout has its items for runs, each alone. -/
theorem holds_of_conjunctive
    {chain : Chain α} {flat truth : α → Bool}
    (conjunctive : (chain.map flat).conjunctive = true) :
    (chain.map truth).holds = chain.items.all truth := by
  induction chain with
  | single item =>
      simp [Chain.map, Chain.holds, Chain.runs, Chain.items]
  | link item join rest inductionHypothesis =>
      simp only [Chain.map, Chain.conjunctive, Bool.and_eq_true, beq_iff_eq] at conjunctive
      obtain ⟨⟨_, rfl⟩, restConjunctive⟩ := conjunctive
      have restHolds := inductionHypothesis restConjunctive
      simp only [Chain.holds] at restHolds
      simp [Chain.map, Chain.holds, Chain.runs, Chain.items, restHolds]

theorem all_of_conjunctive
    {chain : Chain α} {flat : α → Bool}
    (conjunctive : (chain.map flat).conjunctive = true) :
    ∀ item ∈ chain.items, flat item = true := by
  induction chain with
  | single item =>
      simpa [Chain.items, Chain.map, Chain.conjunctive] using conjunctive
  | link item join rest inductionHypothesis =>
      simp only [Chain.map, Chain.conjunctive, Bool.and_eq_true] at conjunctive
      intro other member
      rcases List.mem_cons.mp member with rfl | later
      · exact conjunctive.1.1
      · exact inductionHypothesis conjunctive.2 other later

end Chain

namespace Tree

/-- Two trees of the same shape with related atoms. -/
inductive Corresponds (Related : α → β → Prop) : Tree α → Tree β → Prop
  | leaf {atom : α} {image : β} :
      Related atom image →
      Corresponds Related (.leaf atom) (.leaf image)
  | group {inner : Chain (Tree α)} {images : Chain (Tree β)} :
      Chain.Corresponds (Corresponds Related) inner images →
      Corresponds Related (.group inner) (.group images)

mutual

/-- What holds of atoms, and of a group if it holds of its members, holds of every tree. -/
theorem inductOn
    {motive : Tree α → Prop}
    (leaf : ∀ atom, motive (.leaf atom))
    (group : ∀ inner, (∀ node ∈ inner.items, motive node) → motive (.group inner)) :
    ∀ tree, motive tree
  | .leaf atom => leaf atom
  | .group inner => group inner (inductOnItems leaf group inner)

theorem inductOnItems
    {motive : Tree α → Prop}
    (leaf : ∀ atom, motive (.leaf atom))
    (group : ∀ inner, (∀ node ∈ inner.items, motive node) → motive (.group inner)) :
    ∀ chain : Chain (Tree α), ∀ node ∈ chain.items, motive node
  | .single node, other, member =>
      List.mem_singleton.mp member ▸ inductOn leaf group node
  | .link node _ rest, other, member => by
      rcases List.mem_cons.mp member with same | later
      · exact same ▸ inductOn leaf group node
      · exact inductOnItems leaf group rest other later

end

theorem foldChain_eq_map
    (onLeaf : α → β) (onGroup : Chain β → β) (chain : Chain (Tree α)) :
    foldChain onLeaf onGroup chain = chain.map (fold onLeaf onGroup) := by
  induction chain with
  | single node =>
      simp [foldChain, Chain.map]
  | link node join rest inductionHypothesis =>
      simp [foldChain, Chain.map, inductionHypothesis]

@[simp]
theorem fold_leaf (onLeaf : α → β) (onGroup : Chain β → β) (atom : α) :
    fold onLeaf onGroup (.leaf atom) = onLeaf atom := by
  simp [fold]

@[simp]
theorem fold_group (onLeaf : α → β) (onGroup : Chain β → β) (inner : Chain (Tree α)) :
    fold onLeaf onGroup (.group inner) = onGroup (inner.map (fold onLeaf onGroup)) := by
  simp [fold, foldChain_eq_map]

theorem Corresponds.trans
    {First : α → β → Prop} {Second : β → γ → Prop}
    {tree : Tree α} {middle : Tree β} {image : Tree γ}
    (first : Corresponds First tree middle) (second : Corresponds Second middle image) :
    Corresponds (fun atom image => ∃ between, First atom between ∧ Second between image)
      tree image := by
  induction tree using inductOn generalizing middle image with
  | leaf atom =>
      cases first with
      | leaf related =>
          cases second with
          | leaf further =>
              exact .leaf ⟨_, related, further⟩
  | group inner inductionHypothesis =>
      cases first with
      | group members =>
          cases second with
          | group others =>
              refine .group ((members.trans others).imp ?_)
              rintro node member nodeImage ⟨between, related, further⟩
              exact inductionHypothesis node member related further

theorem Corresponds.imp
    {Related Image : α → β → Prop} {tree : Tree α} {image : Tree β}
    (corresponds : Corresponds Related tree image)
    (respects : ∀ atom image, Related atom image → Image atom image) :
    Corresponds Image tree image := by
  induction tree using inductOn generalizing image with
  | leaf atom =>
      cases corresponds with
      | leaf related =>
          exact .leaf (respects _ _ related)
  | group inner inductionHypothesis =>
      cases corresponds with
      | group members =>
          exact .group <| members.imp
            fun node member other related => inductionHypothesis node member related

/-- Folds of corresponding trees are related by every relation that the steps respect. -/
theorem Corresponds.fold
    {Related : α → β → Prop} (Image : γ → δ → Prop)
    {leftLeaf : α → γ} {leftGroup : Chain γ → γ}
    {rightLeaf : β → δ} {rightGroup : Chain δ → δ}
    (onLeaf : ∀ atom image, Related atom image → Image (leftLeaf atom) (rightLeaf image))
    (onGroup : ∀ members images,
      Chain.Corresponds Image members images → Image (leftGroup members) (rightGroup images))
    {tree : Tree α} {image : Tree β} (corresponds : Corresponds Related tree image) :
    Image (tree.fold leftLeaf leftGroup) (image.fold rightLeaf rightGroup) := by
  induction tree using inductOn generalizing image with
  | leaf atom =>
      cases corresponds with
      | leaf related =>
          simpa using onLeaf atom _ related
  | group inner inductionHypothesis =>
      cases corresponds with
      | group members =>
          simp only [fold_group]
          apply onGroup
          apply members.map (Tree.fold leftLeaf leftGroup) (Tree.fold rightLeaf rightGroup)
          intro node member other related
          exact inductionHypothesis node member related

def atoms (tree : Tree α) : List α :=
  tree.fold (fun atom => [atom]) fun members => members.items.flatten

@[simp]
theorem atoms_leaf (atom : α) : (Tree.leaf atom).atoms = [atom] := by
  simp [atoms]

theorem atoms_group (inner : Chain (Tree α)) :
    (Tree.group inner).atoms = inner.items.flatMap atoms := by
  rw [atoms, fold_group, Chain.items_map, List.flatMap_def]
  rfl

theorem fold_holds_of_conjunctive (truth : α → Bool) {tree : Tree α}
    (conjunctive : tree.fold (fun _ => true) Chain.conjunctive = true) :
    tree.fold truth Chain.holds = tree.atoms.all truth := by
  induction tree using inductOn with
  | leaf atom =>
      simp
  | group inner inductionHypothesis =>
      rw [fold_group] at conjunctive
      rw [fold_group, atoms_group, Chain.holds_of_conjunctive conjunctive, List.all_flatMap]
      have members := Chain.all_of_conjunctive conjunctive
      rw [Bool.eq_iff_iff, List.all_eq_true, List.all_eq_true]
      refine forall₂_congr fun node member => ?_
      rw [inductionHypothesis node member (members node member)]

theorem exists_corresponds {Related : α → β → Prop} {tree : Tree α}
    (related : ∀ atom ∈ tree.atoms, ∃ image, Related atom image) :
    ∃ image, Corresponds Related tree image := by
  induction tree using inductOn with
  | leaf atom =>
      obtain ⟨image, atomRelated⟩ := related atom (by simp)
      exact ⟨.leaf image, .leaf atomRelated⟩
  | group inner inductionHypothesis =>
      have members : ∀ node ∈ inner.items, ∃ image, Corresponds Related node image := by
        intro node member
        apply inductionHypothesis node member
        intro atom inNode
        exact related atom (by simpa [atoms_group] using ⟨node, member, inNode⟩)
      obtain ⟨images, corresponds⟩ := Chain.exists_corresponds members
      exact ⟨.group images, .group corresponds⟩

theorem Corresponds.eq_fold {f : β → α} {tree : Tree α} {image : Tree β}
    (corresponds : Corresponds (fun atom image => atom = f image) tree image) :
    tree = image.fold (fun atom => .leaf (f atom)) .group := by
  induction tree using inductOn generalizing image with
  | leaf atom =>
      cases corresponds with
      | leaf same =>
          rw [same, fold_leaf]
  | group inner inductionHypothesis =>
      cases corresponds with
      | group members =>
          rw [fold_group]
          congr 1
          apply Chain.Corresponds.eq_map
          exact members.imp fun node member other related =>
            inductionHypothesis node member related

theorem Corresponds.atoms {Related : α → β → Prop} {tree : Tree α} {image : Tree β}
    (corresponds : Corresponds Related tree image) :
    List.Forall₂ Related tree.atoms image.atoms := by
  refine corresponds.fold (List.Forall₂ Related) ?_ ?_
  · intro atom atomImage related
    exact .cons related .nil
  · intro members images related
    exact List.rel_flatten related.items

theorem Corresponds.exists_image {Related : α → β → Prop} {tree : Tree α} {image : Tree β}
    (corresponds : Corresponds Related tree image) :
    ∀ atom ∈ tree.atoms, ∃ atomImage, Related atom atomImage := by
  intro atom member
  obtain ⟨atomImage, _, related⟩ := DocQuery.Related.exists_of_mem corresponds.atoms member
  exact ⟨atomImage, related⟩

theorem Corresponds.holds_eq
    {Related : α → β → Prop} {truth : α → Bool} {imageTruth : β → Bool}
    {tree : Tree α} {image : Tree β} (corresponds : Corresponds Related tree image)
    (same : ∀ atom image, Related atom image → truth atom = imageTruth image) :
    tree.fold truth Chain.holds = image.fold imageTruth Chain.holds := by
  refine Corresponds.fold (· = ·) same ?_ corresponds
  intro members images equal
  have sameMembers : members = images.map id := equal.eq_map
  rw [sameMembers, Chain.map_id]

theorem traverseChain_ok
    {ε : Type} {visit : α → Except ε β} {chain : Chain (Tree α)} {images : Chain (Tree β)}
    (visited : traverseChain visit chain = .ok images) :
    Chain.Corresponds (fun node image => node.traverse visit = .ok image) chain images := by
  induction chain generalizing images with
  | single node =>
      simp only [traverseChain, Fallible.bind_eq_ok_iff, Fallible.pure_eq_ok_iff] at visited
      obtain ⟨image, nodeVisited, rfl⟩ := visited
      exact .single nodeVisited
  | link node join rest inductionHypothesis =>
      simp only [traverseChain, Fallible.bind_eq_ok_iff, Fallible.pure_eq_ok_iff] at visited
      obtain ⟨image, nodeVisited, others, restVisited, rfl⟩ := visited
      exact .link join nodeVisited (inductionHypothesis restVisited)

/-- A successful traversal relates every atom to its image. -/
theorem traverse_ok
    {ε : Type} {visit : α → Except ε β} {tree : Tree α} {image : Tree β}
    (visited : tree.traverse visit = .ok image) :
    Corresponds (fun atom image => visit atom = .ok image) tree image := by
  induction tree using inductOn generalizing image with
  | leaf atom =>
      simp only [traverse, Fallible.bind_eq_ok_iff, Fallible.pure_eq_ok_iff] at visited
      obtain ⟨atomImage, atomVisited, rfl⟩ := visited
      exact .leaf atomVisited
  | group inner inductionHypothesis =>
      simp only [traverse, Fallible.bind_eq_ok_iff, Fallible.pure_eq_ok_iff] at visited
      obtain ⟨images, innerVisited, rfl⟩ := visited
      exact .group <| (traverseChain_ok innerVisited).imp
        fun node member image nodeVisited => inductionHypothesis node member nodeVisited

theorem traverseChain_failsOnly {ε : Type} {Cause : ε → Prop} {visit : α → Except ε β}
    {chain : Chain (Tree α)}
    (nodes : ∀ node ∈ chain.items, Fallible.FailsOnly Cause (node.traverse visit)) :
    Fallible.FailsOnly Cause (traverseChain visit chain) := by
  induction chain with
  | single node =>
      exact (nodes node (by simp [Chain.items])).bind fun image _ => .of_ok _
  | link node join rest inductionHypothesis =>
      refine (nodes node List.mem_cons_self).bind fun image _ => ?_
      have restFails := inductionHypothesis fun other member =>
        nodes other (List.mem_cons_of_mem node member)
      exact restFails.bind fun images _ => .of_ok _

theorem traverse_failsOnly {ε : Type} {Cause : ε → Prop} {visit : α → Except ε β} {tree : Tree α}
    (visits : ∀ atom ∈ tree.atoms, Fallible.FailsOnly Cause (visit atom)) :
    Fallible.FailsOnly Cause (tree.traverse visit) := by
  induction tree using inductOn with
  | leaf atom =>
      rw [traverse]
      exact (visits atom (by simp)).bind fun image _ => .of_ok _
  | group inner inductionHypothesis =>
      rw [traverse]
      refine (traverseChain_failsOnly fun node member => ?_).bind fun images _ => .of_ok _
      refine inductionHypothesis node member fun atom inNode => visits atom ?_
      rw [atoms_group]
      exact List.mem_flatMap_of_mem member inNode

theorem traverseChain_pure {m : Type → Type} [Monad m] [LawfulMonad m]
    {visit : α → m β} {chain : Chain (Tree α)} {images : Chain (Tree β)}
    (corresponds : Chain.Corresponds (fun node image => node.traverse visit = pure image)
      chain images) :
    traverseChain visit chain = pure images := by
  induction corresponds with
  | single nodeVisited =>
      simp [traverseChain, nodeVisited]
  | link join nodeVisited _ inductionHypothesis =>
      simp [traverseChain, nodeVisited, inductionHypothesis]

/-- A traversal that has an image for every atom has the tree of these images. -/
theorem traverse_pure {m : Type → Type} [Monad m] [LawfulMonad m]
    {visit : α → m β} {tree : Tree α} {image : Tree β}
    (corresponds : Corresponds (fun atom image => visit atom = pure image) tree image) :
    tree.traverse visit = pure image := by
  induction tree using inductOn generalizing image with
  | leaf atom =>
      cases corresponds with
      | leaf visited =>
          simp [traverse, visited]
  | group inner inductionHypothesis =>
      cases corresponds with
      | group members =>
          have innerVisited := traverseChain_pure <| members.imp
            fun node member image nodeVisited => inductionHypothesis node member nodeVisited
          simp [traverse, innerVisited]

end Tree

namespace Formula

/-- The truth value of a formula is that of its members, run by run. -/
theorem holds_eq_all_runs (truth : α → Bool) (formula : Formula α) :
    formula.holds truth =
      formula.runs.all fun run => run.any fun node => node.fold truth Chain.holds := by
  unfold holds fold Chain.holds
  rw [Tree.foldChain_eq_map, Chain.runs_map, List.all_map]
  congr 1
  funext run
  exact List.any_map

theorem atoms_eq_flatMap_items (formula : Formula α) :
    formula.atoms = formula.items.flatMap Tree.atoms := by
  rw [← Tree.atoms_group]
  rfl

theorem atoms_ofList_or (first : Tree α) (rest : List (Tree α)) :
    Formula.atoms (Chain.ofList .or first rest) = (first :: rest).flatMap Tree.atoms := by
  rw [atoms_eq_flatMap_items, ← Chain.flatten_runs, Chain.runs_ofList_or]
  simp

theorem holds_of_conjunctive (truth : α → Bool) {formula : Formula α}
    (conjunctive : formula.conjunctive = true) :
    formula.holds truth = formula.atoms.all truth := by
  have asGroup : (Tree.group formula).fold (fun _ => true) Chain.conjunctive = true :=
    conjunctive
  exact Tree.fold_holds_of_conjunctive truth asGroup

theorem atoms_append (join : Join) (first second : Formula α) :
    atoms (first.append join second) = first.atoms ++ second.atoms := by
  simp only [atoms_eq_flatMap_items, Chain.items_append, List.flatMap_append]

/-- Formulas attached by `AND` hold together. -/
theorem holds_append_and (truth : α → Bool) (first second : Formula α) :
    holds truth (first.append .and second) =
      (first.holds truth && second.holds truth) := by
  simp only [holds_eq_all_runs, Chain.runs_append_and, List.all_append]

theorem atoms_group (inner : Formula α) : (group inner).atoms = inner.atoms := by
  simp [atoms_eq_flatMap_items, group, Chain.items, Tree.atoms_group]

theorem holds_group (truth : α → Bool) (inner : Formula α) :
    (group inner).holds truth = inner.holds truth := by
  simp [holds_eq_all_runs, group, Chain.runs, Chain.holds, Chain.runs_map, List.all_map,
    List.any_map, Function.comp_def]

theorem holds_leaf (truth : α → Bool) (atom : α) : (leaf atom).holds truth = truth atom := by
  simp [holds_eq_all_runs, leaf, Chain.runs]

theorem holds_eq_of_corresponds
    {Related : α → β → Prop} {truth : α → Bool} {imageTruth : β → Bool}
    {formula : Formula α} {image : Formula β}
    (corresponds : Chain.Corresponds (Tree.Corresponds Related) formula image)
    (same : ∀ atom image, Related atom image → truth atom = imageTruth image) :
    formula.holds truth = image.holds imageTruth := by
  have asGroups : Tree.Corresponds Related (.group formula) (.group image) := .group corresponds
  exact asGroups.holds_eq same

theorem forall₂_atoms {Related : α → β → Prop} {formula : Formula α} {images : Formula β}
    (corresponds : Chain.Corresponds (Tree.Corresponds Related) formula images) :
    List.Forall₂ Related formula.atoms images.atoms := by
  rw [atoms_eq_flatMap_items, atoms_eq_flatMap_items]
  exact List.rel_flatMap corresponds.items fun _ _ related => related.atoms

theorem exists_corresponds {Related : α → β → Prop} {formula : Formula α}
    (related : ∀ atom ∈ formula.atoms, ∃ image, Related atom image) :
    ∃ images : Formula β, Chain.Corresponds (Tree.Corresponds Related) formula images := by
  apply Chain.exists_corresponds
  intro node member
  apply Tree.exists_corresponds
  intro atom inNode
  apply related
  rw [atoms_eq_flatMap_items]
  exact List.mem_flatMap.mpr ⟨node, member, inNode⟩

theorem traverse_pure {m : Type → Type} [Monad m] [LawfulMonad m]
    {visit : α → m β} {formula : Formula α} {images : Formula β}
    (corresponds : Chain.Corresponds
      (Tree.Corresponds fun atom image => visit atom = pure image) formula images) :
    formula.traverse visit = pure images :=
  Tree.traverseChain_pure <| corresponds.imp fun _ _ _ related => Tree.traverse_pure related

/-- A formula can be traversed exactly if each of its atoms can be visited. -/
theorem exists_traverse_iff {ε : Type} {visit : α → Except ε β} {formula : Formula α} :
    (∃ images, formula.traverse visit = .ok images) ↔
      ∀ atom ∈ formula.atoms, ∃ image, visit atom = .ok image := by
  constructor
  · rintro ⟨images, visited⟩ atom member
    have corresponds := (Tree.traverseChain_ok visited).imp
      fun _ _ _ nodeVisited => Tree.traverse_ok nodeVisited
    obtain ⟨image, _, atomVisited⟩ :=
      DocQuery.Related.exists_of_mem (forall₂_atoms corresponds) member
    exact ⟨image, atomVisited⟩
  · intro visited
    obtain ⟨images, corresponds⟩ := exists_corresponds visited
    exact ⟨images, traverse_pure corresponds⟩

/-- A traversal fails only if an atom cannot be visited. -/
theorem traverse_failsOnly {ε : Type} {Cause : ε → Prop} {visit : α → Except ε β}
    {formula : Formula α}
    (visits : ∀ atom ∈ formula.atoms, Fallible.FailsOnly Cause (visit atom)) :
    Fallible.FailsOnly Cause (formula.traverse visit) := by
  refine Tree.traverseChain_failsOnly fun node member => Tree.traverse_failsOnly fun atom inNode =>
    visits atom ?_
  rw [atoms_eq_flatMap_items]
  exact List.mem_flatMap_of_mem member inNode

/-- The truth value of a formula whose atoms may have none. -/
def holds? (value? : α → Option Bool) (formula : Formula α) : Option Bool :=
  (formula.traverse value?).map (holds id)

theorem holds?_eq_some {value? : α → Option Bool} {formula : Formula α}
    (valued : ∀ atom ∈ formula.atoms, ∃ value, value? atom = some value) :
    formula.holds? value? = some (formula.holds fun atom => (value? atom).getD false) := by
  obtain ⟨images, corresponds⟩ := exists_corresponds valued
  have visited : formula.traverse value? = some images := traverse_pure corresponds
  rw [holds?, visited, Option.map_some]
  congr 1
  symm
  apply holds_eq_of_corresponds corresponds
  intro atom value found
  simp [found]

end Formula

end DocQuery
