import DocQuery.Proofs.Condition.Writing
import DocQuery.Proofs.Query.Parameters

/-!
# Fields that have one of several values

A membership step adds the predicate that its field has one of the values of a parameter, and
binds its values to that parameter. The name of the parameter is made of letters and digits of the
field, so that several steps may share it. The main statement says which values the predicate
compares with: those of the last step that shares the name.
-/

namespace DocQuery

theorem Positional.name_ne_candidatesName (number : Nat) (field : String) :
    name number ≠ Draft.candidatesName field := by
  intro same
  have characters := congrArg String.toList same
  simp [name, Draft.candidatesName] at characters

theorem isParameterName_candidatesName (field : String) :
    IsParameterName (Draft.candidatesName field) := by
  have letters : (Draft.candidatesName field).toList =
      ['i', 'n', '_'] ++ field.toList.map fun c => if c.isAlphanum then c else '_' := by
    simp [Draft.candidatesName]
  constructor
  · intro empty
    simp [empty] at letters
  · intro c member
    rw [letters, List.mem_append] at member
    rcases member with fixed | mapped
    · have allKept : ∀ d ∈ ['i', 'n', '_'], d.isAlphanum = true ∨ d = '_' := by
        simp
      exact allKept c fixed
    · obtain ⟨d, _, rfl⟩ := List.mem_map.mp mapped
      by_cases kept : d.isAlphanum = true
      · simp [kept]
      · simp [kept]

/-- The predicate of a membership step. -/
def Predicate.membership (field : String) : Predicate :=
  ⟨field, .isIn, some (.parameter (Draft.candidatesName field))⟩

namespace Step

/-- The values of a membership step, if it binds them to this name. -/
def candidates? (name : String) : Step → Option (List Json)
  | .membership field values => if Draft.candidatesName field = name then some values else none
  | _ => none

theorem bound?_eq_candidates? {name : String} {step : Step}
    (unbound : ∀ value, step ≠ .bind name value) :
    step.bound? name = (step.candidates? name).map Json.array := by
  cases step with
  | bind bound value =>
      have different : bound ≠ name := by
        rintro rfl
        exact unbound value rfl
      exact if_neg different
  | membership field values =>
      simp only [bound?, candidates?]
      split <;> rfl
  | _ =>
      rfl

/-- A membership clause has no marks, and its text is that of its predicate. -/
theorem read_membership {field : String} {values : List Json} {clause : Clause}
    (added : (membership field values).required? = some clause) (identifier : IsIdentifier field)
    (first : Nat) :
    clause.read first = .ok (.single (.leaf (Predicate.membership field))) := by
  cases added
  have named := isParameterName_candidatesName field
  have written : field ++ " IN " ++ parameterText (Draft.candidatesName field) =
      Condition.text (.single (.leaf (Predicate.membership field))) := by
    change _ = field ++ " " ++ "IN" ++ " " ++ parameterText (Draft.candidatesName field)
    apply String.toList_injective
    simp
  have unmarked : '?' ∉
      (field ++ " IN " ++ parameterText (Draft.candidatesName field)).toList := by
    have notInField : '?' ∉ field.toList :=
      fun member => absurd (identifier.isPathChar '?' member) (by decide)
    have notInName : '?' ∉ (Draft.candidatesName field).toList :=
      fun member => absurd (named.2 '?' member) (by decide)
    simp [parameterText, notInField, notInName]
  rw [Clause.read_eq_ok_iff]
  refine ⟨Positional.marks_of_not_mem unmarked, ?_⟩
  rw [Positional.rewritten_of_not_mem unmarked, written]
  apply Condition.parse_text
  intro predicate member
  obtain rfl : predicate = Predicate.membership field := List.mem_singleton.mp member
  exact Condition.exists_derivation identifier (.isIn (.parameter named))

end Step

namespace Draft

variable {limit : Nat} {steps earlier later : List Step} {field : String} {values : List Json}
  {query : Query}

/-- The parameter of a membership step has the last values that are bound to it. -/
theorem get?_candidatesName (built : (ofSteps limit steps).build = .ok query)
    (split : steps = earlier ++ .membership field values :: later) :
    query.parameters.get? (candidatesName field) =
      some ((later.filterMap (Step.bound? (candidatesName field))).getLast?.getD
        (.array values)) := by
  have bound : (Step.membership field values).bound? (candidatesName field) =
      some (.array values) :=
    if_pos rfl
  rw [get?_of_unnumbered built fun number _ => Positional.name_ne_candidatesName number field,
    split, List.filterMap_append, List.filterMap_cons_some bound, List.getLast?_append,
    List.getLast?_cons, Option.some_or]

/-- If the parameters of membership steps are bound by no other steps, the predicate of such a
step compares its field with the values of the last later step that shares the parameter, and
with its own values if there is none. The predicate stands behind those of all required clauses
before it. -/
theorem build_membership (built : (ofSteps limit steps).build = .ok query)
    (split : steps = earlier ++ .membership field values :: later)
    (identifier : IsIdentifier field)
    (unreserved : ∀ name value, Step.bind name value ∈ steps → ¬ "in_".toList <+: name.toList) :
    ∃ conditions others whole,
      Clause.EachRead 0 (earlier.filterMap Step.required?) conditions ∧
      query.condition = some whole ∧
      Formula.atoms whole =
        conditions.flatMap Formula.atoms ++ Predicate.membership field :: others ∧
      (Operand.parameter (candidatesName field)).resolve query.parameters =
        .ok (.array
          ((later.filterMap (Step.candidates? (candidatesName field))).getLast?.getD values)) := by
  obtain ⟨clause, added⟩ : ∃ clause, (Step.membership field values).required? = some clause :=
    ⟨_, rfl⟩
  have listed : (ofSteps limit steps).required ++ (ofSteps limit steps).alternatives =
      earlier.filterMap Step.required? ++ clause ::
        (later.filterMap Step.required? ++ (ofSteps limit steps).alternatives) := by
    rw [required_ofSteps, split, List.filterMap_append, List.filterMap_cons_some added,
      List.append_assoc, List.cons_append]
  obtain ⟨conditions, condition, others, whole, earlierRead, read, found, atoms⟩ :=
    build_reads built listed
  rw [Step.read_membership added identifier] at read
  cases read
  refine ⟨conditions, others, whole, earlierRead, found, ?_, ?_⟩
  · rw [atoms, List.append_assoc]
    rfl
  · -- a bound name that a membership step could share would be a reserved one
    have shared : later.filterMap (Step.bound? (candidatesName field)) =
        (later.filterMap (Step.candidates? (candidatesName field))).map Json.array := by
      rw [List.map_filterMap]
      apply List.filterMap_congr
      intro step member
      apply Step.bound?_eq_candidates?
      rintro value rfl
      refine unreserved (candidatesName field) value ?_ ?_
      · rw [split]
        exact List.mem_append_right earlier (List.mem_cons_of_mem _ member)
      · rw [candidatesName, String.toList_append]
        exact List.prefix_append _ _
    rw [Operand.resolve, get?_candidatesName built split, shared, List.getLast?_map, Option.getD_map]

/-- One field has its parameter alone, and the other one is asked for twice. -/
def membershipSteps : List Step :=
  [.membership "owner" [.null],
    .alternative "state = ?" [.string "open"],
    .membership "user.id" [.string "u1", .string "u2"],
    .bind "arg_7" (.bool true),
    .membership "owner" [.string "o1"]]

theorem build_membership_twice :
    ∃ query, (ofSteps 0 membershipSteps).build = .ok query ∧
      query.condition.map Condition.text =
        some ("owner IN :in_owner: AND user.id IN :in_user_id: AND owner IN :in_owner: AND " ++
          "state = :arg_0:") ∧
      (Operand.parameter "in_user_id").resolve query.parameters =
        .ok (.array [.string "u1", .string "u2"]) ∧
      (Operand.parameter "in_owner").resolve query.parameters = .ok (.array [.string "o1"]) := by
  have text : (ofSteps 0 membershipSteps).build.map
      (fun query => query.condition.map Condition.text) =
        .ok (some ("owner IN :in_owner: AND user.id IN :in_user_id: AND " ++
          "owner IN :in_owner: AND state = :arg_0:")) := by
    decide +kernel
  obtain ⟨query, built, spelled⟩ := Fallible.map_eq_ok_iff.mp text
  have unreserved : ∀ name value, Step.bind name value ∈ membershipSteps →
      ¬ "in_".toList <+: name.toList := by
    intro name value member
    simp only [membershipSteps, List.mem_cons, List.not_mem_nil, reduceCtorEq, or_false,
      false_or, Step.bind.injEq] at member
    rw [member.1]
    decide
  have userSplit : membershipSteps = membershipSteps.take 2 ++
      .membership "user.id" [.string "u1", .string "u2"] :: membershipSteps.drop 3 := rfl
  have ownerSplit : membershipSteps =
      [] ++ .membership "owner" [.null] :: membershipSteps.drop 1 := rfl
  obtain ⟨_, _, _, _, _, _, userResolved⟩ :=
    build_membership built userSplit (by decide) unreserved
  obtain ⟨_, _, _, _, _, _, ownerResolved⟩ :=
    build_membership built ownerSplit (by decide) unreserved
  exact ⟨query, built, spelled, userResolved, ownerResolved⟩

/-- Different fields whose parameters have one name. -/
def sharedSteps : List Step :=
  [.membership "user.id" [.string "u1"], .membership "user_id" [.string "u2"]]

/-- The values of the first step are lost: both predicates compare with those of the second. -/
theorem build_shares_candidates :
    ∃ query, (ofSteps 0 sharedSteps).build = .ok query ∧
      query.condition.map Condition.text =
        some "user.id IN :in_user_id: AND user_id IN :in_user_id:" ∧
      (Operand.parameter (candidatesName "user.id")).resolve query.parameters =
        .ok (.array [.string "u2"]) := by
  have shared : (ofSteps 0 sharedSteps).build.map (fun query =>
      (query.condition.map Condition.text, query.parameters.get? "in_user_id")) =
        .ok (some "user.id IN :in_user_id: AND user_id IN :in_user_id:",
          some (.array [.string "u2"])) := by
    decide +kernel
  obtain ⟨query, built, both⟩ := Fallible.map_eq_ok_iff.mp shared
  obtain ⟨spelled, found⟩ := Prod.mk.inj both
  have named : candidatesName "user.id" = "in_user_id" := by
    decide
  refine ⟨query, built, spelled, ?_⟩
  rw [named, Operand.resolve, found]

end Draft

end DocQuery
