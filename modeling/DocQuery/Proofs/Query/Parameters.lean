import DocQuery.Proofs.Query.Combination

/-!
# What the names in a built query stand for

The arguments of all clauses are numbered through and bound last. So every question mark stands
for its own argument, but a name of the generated form that a step has bound stands for the
argument with that number, if there is one. The main statement says exactly which bound names
keep their values.
-/

namespace DocQuery.Draft

open Positional (Bindings)

/-- The clauses of the steps in the order in which they are read. -/
def clauses (steps : List Step) : List Clause :=
  steps.filterMap Step.required? ++ steps.filterMap Step.alternative?

/-- The arguments of all clauses, each in the place that its number says. -/
def arguments (steps : List Step) : List Json :=
  (clauses steps).flatMap Clause.arguments

variable {limit : Nat} {steps : List Step} {query : Query}

theorem parameters_of_build (built : (ofSteps limit steps).build = .ok query) :
    query.parameters =
      (Bindings.bindAll ⟨0, (ofSteps limit steps).parameters⟩ (arguments steps)).parameters := by
  obtain ⟨_, _, _, _, _, parameters⟩ := build_ok built
  rwa [required_ofSteps, alternatives_ofSteps] at parameters

/-- Every argument is found under its number. -/
theorem get?_argument (built : (ofSteps limit steps).build = .ok query)
    {number : Nat} {argument : Json} (found : (arguments steps)[number]? = some argument) :
    query.parameters.get? (Positional.name number) = some argument := by
  rw [parameters_of_build built, ← Nat.zero_add number]
  exact Bindings.get?_bindAll_name found

/-- A name that is not the name of an argument has the last value that a step binds to it. -/
theorem get?_of_unnumbered (built : (ofSteps limit steps).build = .ok query) {key : String}
    (unnumbered : ∀ number < (arguments steps).length, Positional.name number ≠ key) :
    query.parameters.get? key = (steps.filterMap (Step.bound? key)).getLast? := by
  rw [parameters_of_build built, Bindings.get?_bindAll_of_ne, get?_parameters_ofSteps]
  intro number inRange
  rw [Nat.zero_add]
  exact unnumbered number inRange

theorem getElem?_arguments {before after : List Clause} {clause : Clause}
    (split : clauses steps = before ++ clause :: after) {index : Nat} {argument : Json}
    (found : clause.arguments[index]? = some argument) :
    (arguments steps)[Clause.argumentCount before + index]? = some argument := by
  obtain ⟨inRange, _⟩ := List.getElem?_eq_some_iff.mp found
  rw [arguments, split, List.flatMap_append, List.flatMap_cons, Clause.argumentCount,
    List.getElem?_append_right (Nat.le_add_right _ _), Nat.add_sub_cancel_left,
    List.getElem?_append_left inRange, found]

/-- A name keeps the last value that a step binds to it, unless an argument with another value
has the number that the name is made of. Every clause is read with one placeholder for each mark,
and each placeholder stands for the argument of its mark. -/
theorem build_resolves (built : (ofSteps limit steps).build = .ok query) :
    (∀ name value, (steps.filterMap (Step.bound? name)).getLast? = some value →
      (query.parameters.get? name = some value ↔
        ∀ number argument, (arguments steps)[number]? = some argument →
          Positional.name number = name → argument = value)) ∧
    ∀ before clause after, clauses steps = before ++ clause :: after →
      let first := Clause.argumentCount before
      Positional.marks clause.text = clause.arguments.length ∧
      (∀ index argument, clause.arguments[index]? = some argument →
        (Operand.parameter (Positional.name (first + index))).resolve query.parameters =
          .ok argument) ∧
      ∃ conditions condition others whole,
        Clause.EachRead 0 before conditions ∧
        Condition.parse (Positional.rewritten first clause.text) = .ok condition ∧
        query.condition = some whole ∧
        Formula.atoms whole =
          conditions.flatMap Formula.atoms ++ Formula.atoms condition ++ others := by
  constructor
  · intro name value bound
    constructor
    · rintro kept number argument found rfl
      rw [get?_argument built found, Option.some.injEq] at kept
      exact kept
    · intro harmless
      -- an argument of this name has replaced the bound value, but by the same one
      by_cases numbered :
          ∃ number argument, (arguments steps)[number]? = some argument ∧
            Positional.name number = name
      · obtain ⟨number, argument, found, rfl⟩ := numbered
        rw [get?_argument built found, harmless number argument found rfl]
      · rw [get?_of_unnumbered built, bound]
        intro number inRange same
        exact numbered ⟨number, _, List.getElem?_eq_getElem inRange, same⟩
  · intro before clause after split
    have listed : (ofSteps limit steps).required ++ (ofSteps limit steps).alternatives =
        before ++ clause :: after := by
      rw [required_ofSteps, alternatives_ofSteps]
      exact split
    obtain ⟨conditions, condition, others, whole, earlierRead, read, found, atoms⟩ :=
      build_reads built listed
    obtain ⟨counted, parsed⟩ := Clause.read_eq_ok_iff.mp read
    refine ⟨counted, ?_, conditions, condition, others, whole, earlierRead, parsed, found, atoms⟩
    intro index argument isArgument
    rw [Operand.resolve, get?_argument built (getElem?_arguments split isArgument)]

/-- A bound name has the generated form, but a number that no argument has. -/
def numberedSteps : List Step :=
  [.bind "arg_2" (.string "kept"),
    .alternative "c = '?' OR d = ?" [.bool true],
    .required "a = ? AND b = :arg_2:" [.string "first"]]

theorem build_resolves_numberedSteps :
    ∃ query, (ofSteps 0 numberedSteps).build = .ok query ∧
      query.condition.map Condition.text =
        some "a = :arg_0: AND b = :arg_2: AND (c = '?' OR d = :arg_1:)" ∧
      query.parameters.get? "arg_2" = some (.string "kept") ∧
      (Operand.parameter "arg_1").resolve query.parameters = .ok (.bool true) := by
  have text : (ofSteps 0 numberedSteps).build.map
      (fun query => query.condition.map Condition.text) =
        .ok (some "a = :arg_0: AND b = :arg_2: AND (c = '?' OR d = :arg_1:)") := by
    decide +kernel
  obtain ⟨query, built, spelled⟩ := Fallible.map_eq_ok_iff.mp text
  obtain ⟨keeps, resolves⟩ := build_resolves built
  refine ⟨query, built, spelled, (keeps "arg_2" (.string "kept") rfl).mpr ?_, ?_⟩
  · intro number argument found same
    obtain rfl : number = 2 := Positional.name_injective same
    cases found
  · obtain ⟨_, resolved, _⟩ := resolves [⟨"a = ? AND b = :arg_2:", [.string "first"]⟩]
      ⟨"c = '?' OR d = ?", [.bool true]⟩ [] rfl
    exact resolved 0 (.bool true) rfl

/-- A bound name that is the name of the only argument. -/
def capturedSteps : List Step :=
  [.bind "arg_0" (.string "mine"), .required "a = :arg_0:" [],
    .required "b = ?" [.string "yours"]]

/-- The bound value is lost, and the clause that names it compares with the argument instead. -/
theorem build_captures_bound_name :
    (capturedSteps.filterMap (Step.bound? "arg_0")).getLast? = some (.string "mine") ∧
      ∃ query, (ofSteps 0 capturedSteps).build = .ok query ∧
        query.condition.map Condition.text = some "a = :arg_0: AND b = :arg_0:" ∧
        query.parameters.get? "arg_0" = some (.string "yours") := by
  have captured : (ofSteps 0 capturedSteps).build.map
      (fun query => (query.condition.map Condition.text, query.parameters.get? "arg_0")) =
        .ok (some "a = :arg_0: AND b = :arg_0:", some (.string "yours")) := by
    decide +kernel
  obtain ⟨query, built, both⟩ := Fallible.map_eq_ok_iff.mp captured
  obtain ⟨spelled, found⟩ := Prod.mk.inj both
  exact ⟨rfl, query, built, spelled, found⟩

end DocQuery.Draft
