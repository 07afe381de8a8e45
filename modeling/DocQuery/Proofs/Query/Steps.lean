import DocQuery.Query.Draft
import Mathlib.Tactic.Common

/-!
# Drafts step by step

A draft is what a sequence of steps makes of an empty one. Each step adds one required clause at
most, or one alternative, so that the clauses of a draft are those of its steps in their order.
Its parameters have the values that were bound last.
-/

namespace DocQuery

/-- A step by which a draft is put together. -/
inductive Step where
  | source (name : String)
  | index (name : String)
  | columns (names : List String)
  | required (text : String) (arguments : List Json)
  | alternative (text : String) (arguments : List Json)
  | membership (field : String) (values : List Json)
  | bind (name : String) (value : Json)
  | order (field : String) (direction : Direction)
  | window (limit skip : Nat)

namespace Step

def apply (draft : Draft) : Step → Draft
  | .source name => draft.addSource name
  | .index name => draft.useIndex name
  | .columns names => draft.useColumns names
  | .required text arguments => draft.addRequired text arguments
  | .alternative text arguments => draft.addAlternative text arguments
  | .membership field values => draft.addMembership field values
  | .bind name value => draft.bind name value
  | .order field direction => draft.orderBy field direction
  | .window limit skip => draft.window limit skip

/-- The clause that has to hold because of the step. -/
def required? : Step → Option Clause
  | .required text arguments => some ⟨text, arguments⟩
  | .membership field _ =>
      some ⟨field ++ " IN " ++ parameterText (Draft.candidatesName field), []⟩
  | _ => none

def alternative? : Step → Option Clause
  | .alternative text arguments => some ⟨text, arguments⟩
  | _ => none

/-- The value that the step binds to a name. -/
def bound? (name : String) : Step → Option Json
  | .bind bound value => if bound = name then some value else none
  | .membership field values =>
      if Draft.candidatesName field = name then some (.array values) else none
  | _ => none

theorem required_apply (draft : Draft) (step : Step) :
    (step.apply draft).required = draft.required ++ step.required?.toList := by
  cases step with
  | required text arguments =>
      rfl
  | membership field values =>
      rfl
  | _ =>
      exact (List.append_nil draft.required).symm

theorem alternatives_apply (draft : Draft) (step : Step) :
    (step.apply draft).alternatives = draft.alternatives ++ step.alternative?.toList := by
  cases step with
  | alternative text arguments =>
      rfl
  | _ =>
      exact (List.append_nil draft.alternatives).symm

theorem get?_parameters_apply (draft : Draft) (step : Step) (name : String) :
    (step.apply draft).parameters.get? name =
      (step.bound? name).or (draft.parameters.get? name) := by
  cases step with
  | bind bound value =>
      simp only [apply, Draft.bind, Dictionary.get?_insert, bound?]
      split <;> rfl
  | membership field values =>
      simp only [apply, Draft.addMembership, Draft.addRequired, Draft.bind,
        Dictionary.get?_insert, bound?]
      split <;> rfl
  | _ =>
      rfl

end Step

namespace Draft

/-- The draft that the steps make, with a limit to begin with. -/
def ofSteps (limit : Nat) (steps : List Step) : Draft :=
  steps.foldl Step.apply (withLimit limit)

/-- A list in a draft to which each step adds one entry at most has the entries of all steps. -/
theorem foldl_apply_of_added {α : Type} {listed : Draft → List α} {added? : Step → Option α}
    (adds : ∀ draft step, listed (step.apply draft) = listed draft ++ (added? step).toList)
    (draft : Draft) (steps : List Step) :
    listed (steps.foldl Step.apply draft) = listed draft ++ steps.filterMap added? := by
  induction steps generalizing draft with
  | nil =>
      simp
  | cons step rest inductionHypothesis =>
      rw [List.foldl_cons, inductionHypothesis, adds, List.append_assoc]
      congr 1
      cases added : added? step with
      | none =>
          rw [List.filterMap_cons_none added]
          rfl
      | some entry =>
          rw [List.filterMap_cons_some added]
          rfl

@[simp]
theorem required_ofSteps (limit : Nat) (steps : List Step) :
    (ofSteps limit steps).required = steps.filterMap Step.required? := by
  rw [ofSteps, foldl_apply_of_added Step.required_apply]
  rfl

@[simp]
theorem alternatives_ofSteps (limit : Nat) (steps : List Step) :
    (ofSteps limit steps).alternatives = steps.filterMap Step.alternative? := by
  rw [ofSteps, foldl_apply_of_added Step.alternatives_apply]
  rfl

theorem get?_parameters_foldl_apply (draft : Draft) (steps : List Step) (name : String) :
    (steps.foldl Step.apply draft).parameters.get? name =
      (steps.filterMap (Step.bound? name)).getLast?.or (draft.parameters.get? name) := by
  induction steps generalizing draft with
  | nil =>
      rfl
  | cons step rest inductionHypothesis =>
      rw [List.foldl_cons, inductionHypothesis, Step.get?_parameters_apply]
      cases bound : step.bound? name with
      | none =>
          rw [List.filterMap_cons_none bound, Option.none_or]
      | some value =>
          rw [List.filterMap_cons_some bound, List.getLast?_cons]
          cases (rest.filterMap (Step.bound? name)).getLast? <;> rfl

/-- Of the values that are bound to a name the last one counts. -/
theorem get?_parameters_ofSteps (limit : Nat) (steps : List Step) (name : String) :
    (ofSteps limit steps).parameters.get? name =
      (steps.filterMap (Step.bound? name)).getLast? := by
  rw [ofSteps, get?_parameters_foldl_apply]
  exact Option.or_none

end Draft

end DocQuery
