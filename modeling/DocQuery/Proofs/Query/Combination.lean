import DocQuery.Proofs.Condition.Formula
import DocQuery.Proofs.Query.Positional
import DocQuery.Proofs.Query.Steps

/-!
# What the clauses of a draft say together

A clause is read by itself once it is known how many arguments there are in the clauses before
it. The main statement is about the condition of a query that was built: it holds when the
condition of every required clause does and, if there are alternatives, that of one of them, and
it has their predicates in the order of the steps. Required clauses are attached to each other
without parentheses, which does not regroup them because `AND` keeps runs apart; alternatives
are single members of one run, which takes parentheses around those that have several members.
-/

namespace DocQuery

open Positional (Bindings)

namespace Clause

/-- The condition that a clause says by itself; `first` is the number of its first argument. -/
def read (first : Nat) (clause : Clause) : Except QueryFault Condition :=
  match Positional.expand clause.text clause.arguments ⟨first, []⟩ with
  | .error fault => .error (.badSyntax fault)
  | .ok (text, _) => Condition.parse text

theorem read_eq_ok_iff {first : Nat} {clause : Clause} {condition : Condition} :
    clause.read first = .ok condition ↔
      Positional.marks clause.text = clause.arguments.length ∧
        Condition.parse (Positional.rewritten first clause.text) = .ok condition := by
  unfold read
  split
  · next fault failed =>
      constructor
      · rintro ⟨⟩
      · rintro ⟨counted, _⟩
        rw [Positional.expand_eq_ok_iff.mpr ⟨counted, rfl, rfl⟩] at failed
        cases failed
  · next text after expanded =>
      obtain ⟨counted, rfl, _⟩ := Positional.expand_eq_ok_iff.mp expanded
      exact ⟨fun parsed => ⟨counted, parsed⟩, fun both => both.2⟩

def argumentCount (clauses : List Clause) : Nat :=
  (clauses.flatMap Clause.arguments).length

/-- The conditions that clauses say, each read by itself, with arguments numbered through. -/
inductive EachRead : Nat → List Clause → List Condition → Prop
  | nil {first : Nat} : EachRead first [] []
  | cons {first : Nat} {clause : Clause} {clauses : List Clause} {condition : Condition}
      {conditions : List Condition} :
      clause.read first = .ok condition →
      EachRead (first + clause.arguments.length) clauses conditions →
      EachRead first (clause :: clauses) (condition :: conditions)

theorem EachRead.eq_nil_iff {first : Nat} {clauses : List Clause} {conditions : List Condition}
    (eachRead : EachRead first clauses conditions) : conditions = [] ↔ clauses = [] := by
  cases eachRead with
  | nil =>
      simp
  | cons =>
      simp

section EachRead

variable {first : Nat} {clause : Clause} {before after : List Clause}
  {conditions otherConditions : List Condition}

theorem EachRead.append (eachRead : EachRead first before conditions)
    (othersRead : EachRead (first + argumentCount before) after otherConditions) :
    EachRead first (before ++ after) (conditions ++ otherConditions) := by
  induction eachRead with
  | nil =>
      exact othersRead
  | cons read _ inductionHypothesis =>
      refine .cons read (inductionHypothesis ?_)
      rwa [argumentCount, List.flatMap_cons, List.length_append, ← Nat.add_assoc] at othersRead

theorem EachRead.split (eachRead : EachRead first (before ++ clause :: after) conditions) :
    ∃ earlier condition later, conditions = earlier ++ condition :: later ∧
      EachRead first before earlier ∧
      clause.read (first + argumentCount before) = .ok condition := by
  induction before generalizing first conditions with
  | nil =>
      cases eachRead with
      | cons read _ =>
          exact ⟨[], _, _, rfl, .nil, read⟩
  | cons earlierClause rest inductionHypothesis =>
      cases eachRead with
      | cons read restRead =>
          obtain ⟨earlier, condition, later, rfl, earlierRead, clauseRead⟩ :=
            inductionHypothesis restRead
          refine ⟨_ :: earlier, condition, later, rfl, .cons read earlierRead, ?_⟩
          rwa [argumentCount, List.flatMap_cons, List.length_append, ← Nat.add_assoc]

end EachRead

end Clause

namespace Draft

/-- Clauses are read with the bindings of those before them, but say what they say alone. Their
arguments are bound in a row. -/
theorem readClauses_ok
    {clauses : List Clause} {bindings after : Bindings} {conditions : List Condition}
    (read : readClauses clauses bindings = .ok (conditions, after)) :
    Clause.EachRead bindings.next clauses conditions ∧
      after = bindings.bindAll (clauses.flatMap Clause.arguments) := by
  induction clauses generalizing bindings conditions with
  | nil =>
      cases read
      exact ⟨.nil, rfl⟩
  | cons clause rest inductionHypothesis =>
      unfold readClauses at read
      split at read
      · cases read
      · next text next expanded =>
          simp only [Fallible.bind_eq_ok_iff] at read
          obtain ⟨condition, parsed, ⟨others, last⟩, restRead, same⟩ := read
          cases same
          obtain ⟨counted, rfl, rfl⟩ := Positional.expand_eq_ok_iff.mp expanded
          have readAlone : clause.read bindings.next = .ok condition :=
            Clause.read_eq_ok_iff.mpr ⟨counted, parsed⟩
          obtain ⟨restReadAlone, bound⟩ := inductionHypothesis restRead
          rw [Bindings.next_bindAll] at restReadAlone
          refine ⟨.cons readAlone restReadAlone, ?_⟩
          rw [bound, List.flatMap_cons, Bindings.bindAll_append]

section Meaning

variable (truth : Predicate → Bool)

theorem holds_joinAll_and (first : Condition) (rest : List Condition) :
    Formula.holds truth (joinAll .and first rest) = (first :: rest).all (Formula.holds truth) := by
  induction rest generalizing first with
  | nil =>
      simp [joinAll]
  | cons next others inductionHypothesis =>
      rw [joinAll, Formula.holds_append_and, inductionHypothesis]
      rfl

theorem atoms_joinAll (join : Join) (first : Condition) (rest : List Condition) :
    Formula.atoms (joinAll join first rest) = (first :: rest).flatMap Formula.atoms := by
  induction rest generalizing first with
  | nil =>
      simp [joinAll]
  | cons next others inductionHypothesis =>
      rw [joinAll, Formula.atoms_append, inductionHypothesis]
      rfl

theorem isSingle_asMember (condition : Condition) : (asMember condition).isSingle = true := by
  unfold asMember
  split
  · next single =>
      exact single
  · rfl

@[simp]
theorem holds_asMember (condition : Condition) :
    Formula.holds truth (asMember condition) = Formula.holds truth condition := by
  unfold asMember
  split
  · rfl
  · exact Formula.holds_group truth condition

@[simp]
theorem atoms_asMember (condition : Condition) :
    Formula.atoms (asMember condition) = Formula.atoms condition := by
  unfold asMember
  split
  · rfl
  · exact Formula.atoms_group condition

theorem runs_joinAll_or {first : Condition} {rest : List Condition}
    (single : ∀ condition ∈ first :: rest, condition.isSingle = true) :
    (joinAll .or first rest).runs = [(first :: rest).flatMap Chain.items] := by
  induction rest generalizing first with
  | nil =>
      have firstSingle := single first List.mem_cons_self
      cases first with
      | single node =>
          rfl
      | link node join others =>
          cases firstSingle
  | cons next others inductionHypothesis =>
      have firstSingle := single first List.mem_cons_self
      have restSingle : ∀ condition ∈ next :: others, condition.isSingle = true :=
        fun condition member => single condition (List.mem_cons_of_mem first member)
      cases first with
      | single node =>
          simp only [joinAll, Chain.append, Chain.runs, inductionHypothesis restSingle]
          rfl
      | link node join others =>
          cases firstSingle

/-- Members with `OR` between them make one run, which holds if one of them does. -/
theorem holds_joinAll_or (first : Condition) (rest : List Condition) :
    Formula.holds truth (joinAll .or (asMember first) (rest.map asMember)) =
      (first :: rest).any (Formula.holds truth) := by
  have single : ∀ condition ∈ asMember first :: rest.map asMember,
      condition.isSingle = true := by
    rw [← List.map_cons]
    intro condition member
    obtain ⟨source, _, rfl⟩ := List.mem_map.mp member
    exact isSingle_asMember source
  have memberHolds : ∀ condition : Condition, condition.isSingle = true →
      (condition.items.any fun node => node.fold truth Chain.holds) =
        Formula.holds truth condition := by
    intro condition isSingle
    cases condition with
    | single node =>
        simp [Formula.holds_eq_all_runs, Chain.runs, Chain.items]
    | link node join others =>
        cases isSingle
  rw [Formula.holds_eq_all_runs, runs_joinAll_or single]
  simp only [List.all_cons, List.all_nil, Bool.and_true, List.any_flatMap]
  rw [← List.map_cons, List.any_map]
  congr 1
  funext condition
  rw [Function.comp_apply, memberHolds _ (isSingle_asMember condition), holds_asMember]

variable {required alternatives : List Condition} {condition : Condition}

theorem combine_eq_none_iff :
    combine required alternatives = none ↔ required = [] ∧ alternatives = [] := by
  cases required <;> cases alternatives <;> simp [combine]

theorem holds_combine (combined : combine required alternatives = some condition) :
    Formula.holds truth condition =
      (required.all (Formula.holds truth) &&
        (alternatives.isEmpty || alternatives.any (Formula.holds truth))) := by
  cases required with
  | nil =>
      cases alternatives with
      | nil =>
          cases combined
      | cons other others =>
          cases combined
          rw [holds_joinAll_or]
          simp
  | cons first rest =>
      cases alternatives with
      | nil =>
          cases combined
          rw [holds_joinAll_and]
          simp
      | cons other others =>
          cases combined
          rw [Formula.holds_append_and, holds_joinAll_and, holds_asMember, holds_joinAll_or]
          simp

theorem atoms_combine (combined : combine required alternatives = some condition) :
    Formula.atoms condition = (required ++ alternatives).flatMap Formula.atoms := by
  have members (conditions : List Condition) :
      (conditions.map asMember).flatMap Formula.atoms = conditions.flatMap Formula.atoms := by
    rw [List.flatMap_map]
    exact List.flatMap_congr fun source _ => atoms_asMember source
  cases required with
  | nil =>
      cases alternatives with
      | nil =>
          cases combined
      | cons other others =>
          cases combined
          rw [atoms_joinAll, ← List.map_cons, members, List.nil_append]
  | cons first rest =>
      cases alternatives with
      | nil =>
          cases combined
          rw [atoms_joinAll, List.append_nil]
      | cons other others =>
          cases combined
          rw [Formula.atoms_append, atoms_joinAll, atoms_asMember, atoms_joinAll,
            ← List.map_cons, members, List.flatMap_append]

end Meaning

theorem build_ok {draft : Draft} {query : Query} (built : draft.build = .ok query) :
    ∃ required alternatives,
      Clause.EachRead 0 draft.required required ∧
      Clause.EachRead (Clause.argumentCount draft.required) draft.alternatives alternatives ∧
      query.condition = combine required alternatives ∧
      query.parameters = (Bindings.bindAll ⟨0, draft.parameters⟩
        ((draft.required ++ draft.alternatives).flatMap Clause.arguments)).parameters := by
  simp only [build, Fallible.bind_eq_ok_iff] at built
  obtain ⟨⟨required, middle⟩, requiredRead, ⟨alternatives, last⟩, alternativesRead, same⟩ := built
  cases same
  obtain ⟨requiredAlone, rfl⟩ := readClauses_ok requiredRead
  obtain ⟨alternativesAlone, rfl⟩ := readClauses_ok alternativesRead
  rw [Bindings.next_bindAll, Nat.zero_add] at alternativesAlone
  refine ⟨required, alternatives, requiredAlone, alternativesAlone, rfl, ?_⟩
  rw [List.flatMap_append, Bindings.bindAll_append]

/-- Every clause has its place in the condition of the query: behind the predicates of the clauses
before it. -/
theorem build_reads {draft : Draft} {query : Query} {before after : List Clause} {clause : Clause}
    (built : draft.build = .ok query)
    (split : draft.required ++ draft.alternatives = before ++ clause :: after) :
    ∃ conditions condition others whole,
      Clause.EachRead 0 before conditions ∧
      clause.read (Clause.argumentCount before) = .ok condition ∧
      query.condition = some whole ∧
      Formula.atoms whole =
        conditions.flatMap Formula.atoms ++ Formula.atoms condition ++ others := by
  obtain ⟨required, alternatives, requiredRead, alternativesRead, combined, _⟩ := build_ok built
  rw [← Nat.zero_add (Clause.argumentCount _)] at alternativesRead
  have eachRead := requiredRead.append alternativesRead
  rw [split] at eachRead
  obtain ⟨earlier, condition, later, conditions, earlierRead, clauseRead⟩ := eachRead.split
  rw [Nat.zero_add] at clauseRead
  cases found : query.condition with
  | none =>
      rw [found, eq_comm, combine_eq_none_iff] at combined
      simp [combined.1, combined.2] at conditions
  | some whole =>
      refine ⟨earlier, condition, later.flatMap Formula.atoms, whole, earlierRead, clauseRead,
        rfl, ?_⟩
      rw [found, eq_comm] at combined
      rw [atoms_combine combined, conditions, List.flatMap_append, List.flatMap_cons,
        List.append_assoc]

/-- A query has no condition exactly if no step adds a clause. Otherwise its condition holds
when the condition of every required clause does and, if there are alternatives, that of one of
them, each clause read by itself; and its predicates are those of the required clauses and then
those of the alternatives, in the order of the steps. -/
theorem build_combines {limit : Nat} {steps : List Step} {query : Query}
    (built : (ofSteps limit steps).build = .ok query) :
    ∃ required alternatives,
      Clause.EachRead 0 (steps.filterMap Step.required?) required ∧
      Clause.EachRead (Clause.argumentCount (steps.filterMap Step.required?))
        (steps.filterMap Step.alternative?) alternatives ∧
      (query.condition = none ↔
        steps.filterMap Step.required? = [] ∧ steps.filterMap Step.alternative? = []) ∧
      ∀ condition, query.condition = some condition →
        (∀ truth, Formula.holds truth condition =
          (required.all (Formula.holds truth) &&
            (alternatives.isEmpty || alternatives.any (Formula.holds truth)))) ∧
        Formula.atoms condition = (required ++ alternatives).flatMap Formula.atoms := by
  obtain ⟨required, alternatives, requiredRead, alternativesRead, combined, _⟩ := build_ok built
  rw [required_ofSteps] at requiredRead alternativesRead
  rw [alternatives_ofSteps] at alternativesRead
  refine ⟨required, alternatives, requiredRead, alternativesRead, ?_, ?_⟩
  · rw [combined, combine_eq_none_iff, requiredRead.eq_nil_iff, alternativesRead.eq_nil_iff]
  · intro condition found
    rw [combined] at found
    exact ⟨fun truth => holds_combine truth found, atoms_combine found⟩

/-- Clauses of every kind, in an order in which the alternatives do not come last. -/
def mixedSteps : List Step :=
  [.alternative "a = 1 OR b = ?" [.bool true],
    .required "c = ? OR (d = :d: AND e IS NULL)" [.string "x"],
    .bind "d" (.bool false),
    .membership "f.g" [.null, .bool true],
    .required "h LIKE 'x%' OR i = 2" [],
    .alternative "j = 3" []]

theorem build_combines_mixedSteps :
    ∃ query, (ofSteps 0 mixedSteps).build = .ok query ∧
      query.condition.map Condition.text =
        some ("c = :arg_0: OR (d = :d: AND e IS NULL) AND f.g IN :in_f_g: AND " ++
          "h LIKE 'x%' OR i = 2 AND ((a = 1 OR b = :arg_1:) OR j = 3)") ∧
      ∃ required alternatives,
        Clause.EachRead 0 (mixedSteps.filterMap Step.required?) required ∧
        Clause.EachRead (Clause.argumentCount (mixedSteps.filterMap Step.required?))
          (mixedSteps.filterMap Step.alternative?) alternatives ∧
        (query.condition = none ↔ mixedSteps.filterMap Step.required? = [] ∧
          mixedSteps.filterMap Step.alternative? = []) ∧
        ∀ condition, query.condition = some condition →
          (∀ truth, Formula.holds truth condition =
            (required.all (Formula.holds truth) &&
              (alternatives.isEmpty || alternatives.any (Formula.holds truth)))) ∧
          Formula.atoms condition = (required ++ alternatives).flatMap Formula.atoms := by
  have text : (ofSteps 0 mixedSteps).build.map
      (fun query => query.condition.map Condition.text) =
        .ok (some ("c = :arg_0: OR (d = :d: AND e IS NULL) AND f.g IN :in_f_g: AND " ++
          "h LIKE 'x%' OR i = 2 AND ((a = 1 OR b = :arg_1:) OR j = 3)")) := by
    decide +kernel
  obtain ⟨query, built, spelled⟩ := Fallible.map_eq_ok_iff.mp text
  exact ⟨query, built, spelled, build_combines built⟩

end Draft

end DocQuery
