import DocQuery.Condition.Pattern
import DocQuery.Condition.Test

/-!
# Checks that a key-value store makes

The expressions of a key-value store compare one attribute with operands. Here a check is kept
with its operands left open: first they are values, later the placeholders for them.
-/

namespace DocQuery

/-- A check of one attribute against operands of any kind. -/
inductive Check (β : Type) where
  | compare (comparator : Comparator) (operand : β)
  | within (operands : List β)
  | notWithin (operands : List β)
  | beginsWith (operand : β)
  | contains (operand : β)
  | present
  | absent
deriving DecidableEq

/-- A check of the attribute at a path, which may have an operand named in the condition. -/
structure StoreTest where
  field : String
  parameter : Option String
  check : Check Json
deriving DecidableEq

/-- A check as it stands in an expression: a path of aliases, and placeholders. -/
structure StoreClause where
  path : String
  check : Check String
deriving DecidableEq

namespace Check

/-- The check that makes a test. There is none for a pattern of another shape than the three
that are tests of their own. -/
def ofTest? : Test → Option (Check Json)
  | .compare comparator value => some (.compare comparator value)
  | .isIn candidates => some (.within candidates)
  | .notIn candidates => some (.notWithin candidates)
  | .like pattern =>
      match Pattern.classify pattern with
      | .exact text => some (.compare .eq (.string text))
      | .startsWith text => some (.beginsWith (.string text))
      | .contains text => some (.contains (.string text))
      | .other _ => none
  | .isNull => some .absent
  | .isNotNull => some .present

end Check

/-- The name of the parameter that is the whole operand of a predicate. -/
def Predicate.parameter? (predicate : Predicate) : Option String :=
  match predicate.operand with
  | some (.parameter name) => some name
  | _ => none

def Predicate.storeTest (parameters : Parameters) (predicate : Predicate) :
    Except QueryFault StoreTest := do
  match Check.ofTest? (← predicate.test parameters) with
  | some check => return ⟨predicate.field, predicate.parameter?, check⟩
  | none => .error (predicate.unsupported .patternShape)

def Comparator.storeText : Comparator → String
  | .ne => "<>"
  | comparator => comparator.text

namespace StoreClause

/-- A call of a function on a path and a placeholder. -/
def call (function path placeholder : String) : String :=
  function ++ "(" ++ path ++ ", " ++ placeholder ++ ")"

/-- The text of the test that a path has one of several values. -/
def membership (path : String) (placeholders : List String) : String :=
  path ++ " IN (" ++ String.intercalate ", " placeholders ++ ")"

def text (clause : StoreClause) : String :=
  match clause.check with
  | .compare comparator placeholder =>
      clause.path ++ " " ++ comparator.storeText ++ " " ++ placeholder
  | .within placeholders => membership clause.path placeholders
  | .notWithin placeholders => "NOT (" ++ membership clause.path placeholders ++ ")"
  | .beginsWith placeholder => call "begins_with" clause.path placeholder
  | .contains placeholder => call "contains" clause.path placeholder
  | .present => "attribute_exists(" ++ clause.path ++ ")"
  | .absent => "attribute_not_exists(" ++ clause.path ++ ")"

end StoreClause

namespace StoreExpression

/-- The text of a chain, given those of its members. In an expression `AND` binds tighter than
`OR`, so that a run of several members needs parentheses beside other runs. -/
def chainText (members : Chain String) : String :=
  let runs := members.runs
  String.intercalate " AND " (runs.map fun run =>
    let text := String.intercalate " OR " run
    if 1 < runs.length ∧ 1 < run.length then "(" ++ text ++ ")" else text)

/-- The text of a group, which has parentheses unless it has one member. -/
def groupText (members : Chain String) : String :=
  if members.isSingle then chainText members else "(" ++ chainText members ++ ")"

def text (formula : Formula StoreClause) : String :=
  chainText (Tree.foldChain StoreClause.text groupText formula)

/-- The text that several formulas hold together, if there are any. -/
def conjunction? : List (Formula StoreClause) → Option String
  | [] => none
  | [formula] => some (text formula)
  | formulas => some (String.intercalate " AND " (formulas.map fun formula =>
      if formula.isSingle then text formula else "(" ++ text formula ++ ")"))

end StoreExpression

end DocQuery
