import DocQuery.Proofs.Condition.Formula

/-!
# Joins and runs of chains attached to each other

The items of a chain, each with the join in front of it, are cut into the runs of the chain:

* no run is empty;
* `AND` stands between two runs;
* `OR` stands between two items of one run.

There is one such cut (`runs_eq_iff`), and one pass over the items from left to right finds it
(`runs_eq_foldl`). Attaching a chain to the end of another continues the pass, so that the runs
of the whole are read off the runs of the two: `AND` leaves them apart, and `OR` makes one run of
the last run of the first chain and the first run of the second.
-/

namespace DocQuery.Chain

variable {α : Type}

/-! ## Items with their joins -/

theorem exists_joinedFrom (chain : Chain α) :
    ∃ item rest, ∀ before, chain.joinedFrom before = (before, item) :: rest := by
  cases chain with
  | single item =>
      exact ⟨item, [], fun _ => rfl⟩
  | link item join rest =>
      exact ⟨item, rest.joinedFrom (some join), fun _ => rfl⟩

theorem map_snd_joinedFrom (before : Option Join) (chain : Chain α) :
    (chain.joinedFrom before).map Prod.snd = chain.items := by
  induction chain generalizing before with
  | single item =>
      rfl
  | link item join rest inductionHypothesis =>
      rw [joinedFrom, List.map_cons, inductionHypothesis, items]

theorem joinedFrom_append (before : Option Join) (join : Join) (first second : Chain α) :
    (first.append join second).joinedFrom before =
      first.joinedFrom before ++ second.joinedFrom (some join) := by
  induction first generalizing before with
  | single item =>
      rfl
  | link item next rest inductionHypothesis =>
      rw [append, joinedFrom, inductionHypothesis, joinedFrom, List.cons_append]

/-- The join of the attached chain stands in front of its first item; all others stay. -/
theorem joined_append (join : Join) (first second : Chain α) :
    ∃ item rest, second.joined = (none, item) :: rest ∧
      (first.append join second).joined = first.joined ++ (some join, item) :: rest := by
  obtain ⟨item, rest, joined⟩ := second.exists_joinedFrom
  refine ⟨item, rest, joined none, ?_⟩
  rw [Chain.joined, joinedFrom_append, joined (some join), Chain.joined]

theorem append_assoc (join next : Join) (first second third : Chain α) :
    (first.append join second).append next third =
      first.append join (second.append next third) := by
  induction first with
  | single item =>
      rfl
  | link item other rest inductionHypothesis =>
      rw [append, append, inductionHypothesis, append]

/-! ## Cuts into runs -/

/-- The items of a run, with `before` in front of the first and `OR` in front of the others. -/
def rejoinRun (before : Option Join) : List α → List (Option Join × α)
  | [] => []
  | first :: rest => (before, first) :: rest.map fun item => (some .or, item)

/-- The items of runs, with `before` in front of the first run and `AND` in front of the
others. -/
def rejoin (before : Option Join) : List (List α) → List (Option Join × α)
  | [] => []
  | run :: others => rejoinRun before run ++ rejoin (some .and) others

/-- Items, each with the join in front of it, are cut into runs: the joins inside a run are `OR`
and those between runs are `AND`. -/
structure IsCut (joined : List (Option Join × α)) (runs : List (List α)) : Prop where
  nonempty : ∀ run ∈ runs, run ≠ []
  rejoined : rejoin none runs = joined

theorem rejoinRun_or (run : List α) :
    rejoinRun (some .or) run = run.map fun item => (some .or, item) := by
  cases run <;> rfl

theorem joinedFrom_eq_rejoin (before : Option Join) (chain : Chain α) :
    chain.joinedFrom before = rejoin before chain.runs := by
  induction chain generalizing before with
  | single item =>
      rfl
  | link item join rest inductionHypothesis =>
      rw [joinedFrom, inductionHypothesis]
      cases join with
      | and =>
          rfl
      | or =>
          obtain ⟨run, others, restRuns, linkRuns⟩ := runs_link_or item rest
          rw [linkRuns, restRuns, rejoin, rejoinRun_or, rejoin]
          rfl

theorem isCut_runs (chain : Chain α) : IsCut chain.joined chain.runs where
  nonempty _ := ne_nil_of_mem_runs
  rejoined := (joinedFrom_eq_rejoin none chain).symm

/-! ## One pass over the items -/

/-- The runs of the items before, with the next item: after `OR` it belongs to the last run,
otherwise it begins a run. -/
def gather (gathered : List (List α)) (next : Option Join × α) : List (List α) :=
  match next.1, gathered.getLast? with
  | some .or, some run => gathered.dropLast ++ [run ++ [next.2]]
  | _, _ => gathered ++ [[next.2]]

theorem gather_or (gathered : List (List α)) (run : List α) (item : α) :
    gather (gathered ++ [run]) (some .or, item) = gathered ++ [run ++ [item]] := by
  simp [gather]

theorem gather_of_ne_or {before : Option Join} (different : before ≠ some .or)
    (gathered : List (List α)) (item : α) :
    gather gathered (before, item) = gathered ++ [[item]] := by
  unfold gather
  split
  · next isOr _ =>
      exact absurd isOr different
  · rfl

theorem foldl_gather_run (gathered : List (List α)) (run items : List α) :
    (items.map fun item => (some Join.or, item)).foldl gather (gathered ++ [run]) =
      gathered ++ [run ++ items] := by
  induction items generalizing run with
  | nil =>
      simp
  | cons item rest inductionHypothesis =>
      rw [List.map_cons, List.foldl_cons, gather_or, inductionHypothesis, List.append_assoc,
        List.singleton_append]

/-- The pass finds every cut again, behind whatever runs it has gathered. -/
theorem foldl_gather_rejoin {before : Option Join} (different : before ≠ some .or)
    (gathered : List (List α)) {runs : List (List α)} (nonempty : ∀ run ∈ runs, run ≠ []) :
    (rejoin before runs).foldl gather gathered = gathered ++ runs := by
  induction runs generalizing before gathered with
  | nil =>
      simp [rejoin]
  | cons run others inductionHypothesis =>
      have othersNonempty : ∀ other ∈ others, other ≠ [] :=
        fun other member => nonempty other (List.mem_cons_of_mem run member)
      cases run with
      | nil =>
          exact absurd rfl (nonempty [] List.mem_cons_self)
      | cons first rest =>
          rw [rejoin, rejoinRun, List.foldl_append, List.foldl_cons,
            gather_of_ne_or different, foldl_gather_run, inductionHypothesis (by simp) _
            othersNonempty, List.append_assoc, List.singleton_append, List.singleton_append]

theorem IsCut.eq_foldl {joined : List (Option Join × α)} {runs : List (List α)}
    (isCut : IsCut joined runs) : runs = joined.foldl gather [] := by
  rw [← isCut.rejoined, foldl_gather_rejoin (by simp) [] isCut.nonempty, List.nil_append]

/-- The runs of a chain are gathered item by item. -/
theorem runs_eq_foldl (chain : Chain α) : chain.runs = chain.joined.foldl gather [] :=
  chain.isCut_runs.eq_foldl

/-- The joins of a chain leave one way to cut it into runs. -/
theorem runs_eq_iff {chain : Chain α} {runs : List (List α)} :
    chain.runs = runs ↔ IsCut chain.joined runs := by
  constructor
  · rintro rfl
    exact chain.isCut_runs
  · intro isCut
    rw [isCut.eq_foldl, runs_eq_foldl]

theorem runs_append_eq_foldl (join : Join) (first second : Chain α) :
    (first.append join second).runs = (second.joinedFrom (some join)).foldl gather first.runs := by
  rw [runs_eq_foldl, joined, joinedFrom_append, List.foldl_append, ← joined, ← runs_eq_foldl]

/-- Chains attached by `OR` share a run: the last one of the first chain and the first one of the
second are put together. -/
theorem runs_append_or (first second : Chain α) :
    ∃ initial last run others,
      first.runs = initial ++ [last] ∧
      second.runs = run :: others ∧
      (first.append .or second).runs = initial ++ (last ++ run) :: others := by
  obtain ⟨initial, last, firstRuns⟩ :=
    (List.eq_nil_or_concat' first.runs).resolve_left first.runs_ne_nil
  obtain ⟨run, others, secondRuns⟩ := List.exists_cons_of_ne_nil second.runs_ne_nil
  have othersNonempty : ∀ other ∈ others, other ≠ [] := by
    intro other member
    have inSecond : other ∈ second.runs := by
      rw [secondRuns]
      exact List.mem_cons_of_mem run member
    exact ne_nil_of_mem_runs inSecond
  refine ⟨initial, last, run, others, firstRuns, secondRuns, ?_⟩
  -- The pass has `initial ++ [last]` when it comes to the run behind the join.
  rw [runs_append_eq_foldl, firstRuns, joinedFrom_eq_rejoin, secondRuns, rejoin, rejoinRun_or,
    List.foldl_append, foldl_gather_run, foldl_gather_rejoin (by simp) _ othersNonempty,
    List.append_assoc, List.singleton_append]

example :
    ((link 1 .and (single 2)).append .or (link 3 .and (single 4))).runs = [[1], [2, 3], [4]] := by
  decide

/-- A chain attached to the end of another keeps the joins of both behind its own, in whatever
order several chains are attached. The runs cut the items where `AND` stands; they stay as they
are when chains are attached by `AND`, and by `OR` only the two runs next to the join change,
which become one. -/
theorem append_joins_and_runs (first second : Chain α) :
    (∀ join, ∃ item rest, second.joined = (none, item) :: rest ∧
      (first.append join second).joined = first.joined ++ (some join, item) :: rest) ∧
    (∀ join next third, (first.append join second).append next third =
      first.append join (second.append next third)) ∧
    first.runs.flatten = first.joined.map Prod.snd ∧
    IsCut first.joined first.runs ∧
    (first.append .and second).runs = first.runs ++ second.runs ∧
    ∃ initial last run others,
      first.runs = initial ++ [last] ∧
      second.runs = run :: others ∧
      (first.append .or second).runs = initial ++ (last ++ run) :: others := by
  have flattened : first.runs.flatten = first.joined.map Prod.snd := by
    rw [flatten_runs, joined, map_snd_joinedFrom]
  refine ⟨?_, ?_, flattened, first.isCut_runs, runs_append_and first second,
    runs_append_or first second⟩
  · intro join
    exact joined_append join first second
  · intro join next third
    exact append_assoc join next first second third

end DocQuery.Chain
