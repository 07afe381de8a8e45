import DocQuery.Dictionary

/-!
# Attribute values

The typed values that a key-value store holds. Numbers are kept as the text they were written
in. An item is a dictionary of attributes.
-/

namespace DocQuery

inductive Attribute where
  | string (value : String)
  | number (spelling : String)
  | binary (bytes : List UInt8)
  | stringSet (values : List String)
  | numberSet (spellings : List String)
  | bool (value : Bool)
  | null (flag : Bool)
  | list (items : List Attribute)
  | map (entries : List (String × Attribute))
deriving Inhabited

abbrev Item := Dictionary Attribute

namespace Attribute

mutual

def decEq : (left right : Attribute) → Decidable (left = right)
  | .string a, right =>
      match right with
      | .string b => decidable_of_iff (a = b) (by simp)
      | .number _ | .binary _ | .stringSet _ | .numberSet _ | .bool _ | .null _ | .list _
      | .map _ => isFalse (by simp)
  | .number a, right =>
      match right with
      | .number b => decidable_of_iff (a = b) (by simp)
      | .string _ | .binary _ | .stringSet _ | .numberSet _ | .bool _ | .null _ | .list _
      | .map _ => isFalse (by simp)
  | .binary a, right =>
      match right with
      | .binary b => decidable_of_iff (a = b) (by simp)
      | .string _ | .number _ | .stringSet _ | .numberSet _ | .bool _ | .null _ | .list _
      | .map _ => isFalse (by simp)
  | .stringSet a, right =>
      match right with
      | .stringSet b => decidable_of_iff (a = b) (by simp)
      | .string _ | .number _ | .binary _ | .numberSet _ | .bool _ | .null _ | .list _
      | .map _ => isFalse (by simp)
  | .numberSet a, right =>
      match right with
      | .numberSet b => decidable_of_iff (a = b) (by simp)
      | .string _ | .number _ | .binary _ | .stringSet _ | .bool _ | .null _ | .list _
      | .map _ => isFalse (by simp)
  | .bool a, right =>
      match right with
      | .bool b => decidable_of_iff (a = b) (by simp)
      | .string _ | .number _ | .binary _ | .stringSet _ | .numberSet _ | .null _ | .list _
      | .map _ => isFalse (by simp)
  | .null a, right =>
      match right with
      | .null b => decidable_of_iff (a = b) (by simp)
      | .string _ | .number _ | .binary _ | .stringSet _ | .numberSet _ | .bool _ | .list _
      | .map _ => isFalse (by simp)
  | .list a, right =>
      match right with
      | .list b =>
          match decEqItems a b with
          | isTrue same => isTrue (by rw [same])
          | isFalse different => isFalse (by simpa using different)
      | .string _ | .number _ | .binary _ | .stringSet _ | .numberSet _ | .bool _ | .null _
      | .map _ => isFalse (by simp)
  | .map a, right =>
      match right with
      | .map b =>
          match decEqEntries a b with
          | isTrue same => isTrue (by rw [same])
          | isFalse different => isFalse (by simpa using different)
      | .string _ | .number _ | .binary _ | .stringSet _ | .numberSet _ | .bool _ | .null _
      | .list _ => isFalse (by simp)

/-- Equality of lists of attribute values is decidable. -/
def decEqItems : (left right : List Attribute) → Decidable (left = right)
  | [], [] => isTrue rfl
  | a :: as, b :: bs =>
      match decEq a b, decEqItems as bs with
      | isTrue first, isTrue rest => isTrue (by rw [first, rest])
      | isFalse first, _ => isFalse (by simp [first])
      | _, isFalse rest => isFalse (by simp [rest])
  | [], _ :: _ => isFalse (by simp)
  | _ :: _, [] => isFalse (by simp)

def decEqEntries : (left right : List (String × Attribute)) → Decidable (left = right)
  | [], [] => isTrue rfl
  | (name, a) :: as, (other, b) :: bs =>
      match decEq a b, decEqEntries as bs with
      | isTrue first, isTrue rest => decidable_of_iff (name = other) (by simp [first, rest])
      | isFalse first, _ => isFalse (by simp [first])
      | _, isFalse rest => isFalse (by simp [rest])
  | [], _ :: _ => isFalse (by simp)
  | _ :: _, [] => isFalse (by simp)

end

instance : DecidableEq Attribute := decEq

/-- The string, if it is one. -/
def string? : Attribute → Option String
  | .string value => some value
  | _ => none

/-- The text of the number, if it is one. -/
def number? : Attribute → Option String
  | .number spelling => some spelling
  | _ => none

def tag : Attribute → String
  | .string _ => "S"
  | .number _ => "N"
  | .binary _ => "B"
  | .stringSet _ => "SS"
  | .numberSet _ => "NS"
  | .bool _ => "BOOL"
  | .null _ => "NULL"
  | .list _ => "L"
  | .map _ => "M"

def tags : List String :=
  ["S", "N", "B", "SS", "NS", "BOOL", "NULL", "L", "M"]

end Attribute

end DocQuery
