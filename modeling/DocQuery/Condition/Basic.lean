import DocQuery.Condition.Formula
import DocQuery.Json.Basic

/-!
# Conditions

A condition is a formula whose atoms compare a field with a value. The value is written in the
condition or named by a parameter that is bound later.
-/

namespace DocQuery

inductive Comparator where
  | eq
  | ne
  | lt
  | le
  | gt
  | ge
deriving DecidableEq, Repr

def Comparator.text : Comparator → String
  | .eq => "="
  | .ne => "!="
  | .lt => "<"
  | .le => "<="
  | .gt => ">"
  | .ge => ">="

inductive Operator where
  | compare (comparator : Comparator)
  | isIn
  | notIn
  | like
  | isNull
  | isNotNull
deriving DecidableEq, Repr

namespace Operator

def text : Operator → String
  | .compare comparator => comparator.text
  | .isIn => "IN"
  | .notIn => "NOT IN"
  | .like => "LIKE"
  | .isNull => "IS NULL"
  | .isNotNull => "IS NOT NULL"

def takesValue : Operator → Bool
  | .isNull | .isNotNull => false
  | _ => true

/-- All operators, each once. -/
def all : List Operator :=
  [.compare .eq, .compare .ne, .compare .lt, .compare .le, .compare .gt, .compare .ge,
    .isIn, .notIn, .like, .isNull, .isNotNull]

def ofText? (spelling : String) : Option Operator :=
  all.find? fun operator => operator.text == spelling

end Operator

/-- A value in a condition: a parameter, a literal, or a list of values. -/
inductive Operand where
  | parameter (name : String)
  | literal (value : Json)
  | list (items : List Operand)

namespace Operand

mutual

def decEq : (left right : Operand) → Decidable (left = right)
  | .parameter a, .parameter b => decidable_of_iff (a = b) (by simp)
  | .literal a, .literal b => decidable_of_iff (a = b) (by simp)
  | .list a, .list b =>
      match decEqItems a b with
      | isTrue same => isTrue (by rw [same])
      | isFalse different => isFalse (by simpa using different)
  | .parameter _, .literal _ | .parameter _, .list _ | .literal _, .parameter _
  | .literal _, .list _ | .list _, .parameter _ | .list _, .literal _ => isFalse (by simp)

def decEqItems : (left right : List Operand) → Decidable (left = right)
  | [], [] => isTrue rfl
  | a :: as, b :: bs =>
      match decEq a b, decEqItems as bs with
      | isTrue first, isTrue rest => isTrue (by rw [first, rest])
      | isFalse first, _ => isFalse (by simp [first])
      | _, isFalse rest => isFalse (by simp [rest])
  | [], _ :: _ => isFalse (by simp)
  | _ :: _, [] => isFalse (by simp)

end

instance : DecidableEq Operand := decEq

end Operand

structure Predicate where
  field : String
  operator : Operator
  operand : Option Operand
deriving DecidableEq

abbrev Condition := Formula Predicate

end DocQuery
