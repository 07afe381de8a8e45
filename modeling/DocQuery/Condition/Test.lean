import DocQuery.Condition.Resolution
import DocQuery.Text.Blank
import DocQuery.Text.Pieces

/-!
# Predicates with their values

A test is what a predicate says once the values of its operands are known. Comparisons need a
single value, `LIKE` needs a string, and `IN` needs at least one candidate.
-/

namespace DocQuery

inductive Test where
  | compare (comparator : Comparator) (value : Json)
  | isIn (candidates : List Json)
  | notIn (candidates : List Json)
  | like (pattern : String)
  | isNull
  | isNotNull
deriving DecidableEq

namespace Predicate

def unsupported (predicate : Predicate) (reason : Unsupported) : QueryFault :=
  .unsupportedCondition predicate.text reason

def value (parameters : Parameters) (predicate : Predicate) : Except QueryFault Json :=
  match predicate.operand with
  | some operand => operand.resolve parameters
  | none => .error (predicate.unsupported .missingValue)

/-- The value that a predicate compares with, which must be neither an array nor an object. -/
def scalar (parameters : Parameters) (predicate : Predicate) : Except QueryFault Json := do
  match ← predicate.value parameters with
  | .array _ | .object _ =>
      .error (predicate.unsupported (.singleValueExpected predicate.operator))
  | value => return value

def pattern (parameters : Parameters) (predicate : Predicate) : Except QueryFault String := do
  match ← predicate.scalar parameters with
  | .string pattern => return pattern
  | _ => .error (predicate.unsupported .patternExpected)

/-- The members of an array, of which arrays are replaced by their own members. Another value
is its only member. -/
def members : Json → List Json
  | .array items => items.flatMap fun
      | .array inner => inner
      | item => [item]
  | value => [value]

/-- The candidates that a member contributes: a string is cut at commas, and its pieces are
trimmed and dropped if nothing is left. -/
def candidatesOf : Json → List Json
  | .string text =>
      let entries := (Text.pieces ',' text.toList).map Text.trim
      (entries.filter fun entry => !entry.isEmpty).map fun entry => .string (String.ofList entry)
  | value => [value]

def candidates (parameters : Parameters) (predicate : Predicate) :
    Except QueryFault (List Json) := do
  match (members (← predicate.value parameters)).flatMap candidatesOf with
  | [] => .error (predicate.unsupported .emptyList)
  | candidates => return candidates

def test (parameters : Parameters) (predicate : Predicate) : Except QueryFault Test :=
  match predicate.operator with
  | .compare comparator => (predicate.scalar parameters).map (.compare comparator)
  | .isIn => (predicate.candidates parameters).map .isIn
  | .notIn => (predicate.candidates parameters).map .notIn
  | .like => (predicate.pattern parameters).map .like
  | .isNull => .ok .isNull
  | .isNotNull => .ok .isNotNull

end Predicate

end DocQuery
