import DocQuery.Attribute.Plain
import DocQuery.Store.Check

/-!
# Aliases and placeholders

Expressions name attributes by aliases and values by placeholders. An alias is a `#` before the
name, a placeholder a `:` before a hint, where other characters than ASCII letters, digits and
`_` are replaced. What was named before keeps its name. A name that is taken for something
else gets a number behind it, the first one that is free.
-/

namespace DocQuery

structure Names where
  fields : Dictionary String
  values : Dictionary Attribute
  literals : Nat

namespace Names

def empty : Names :=
  ⟨[], [], 0⟩

/-- A text with every character replaced that no name may have. -/
def safe (text : String) : String :=
  String.ofList (text.toList.map fun c => if c.isAlphanum || c == '_' then c else '_')

/-- The candidates for a name: the bare one, then those with a number. -/
def candidate (base : String) : Nat → String
  | 0 => base
  | number + 1 => base ++ "_" ++ toString (number + 1)

/-- The first candidate from a number on that is free or already names the entry. As many
candidates are tried as it takes to find a free one. -/
def fitFrom {α : Type} [DecidableEq α] (table : Dictionary α) (base : String) (entry : α) :
    Nat → Nat → String
  | 0, number => candidate base number
  | tries + 1, number =>
      match table.get? (candidate base number) with
      | none => candidate base number
      | some held =>
          if held = entry then candidate base number
          else fitFrom table base entry tries (number + 1)

def fit {α : Type} [DecidableEq α] (table : Dictionary α) (base : String) (entry : α) :
    String :=
  fitFrom table base entry table.length 0

def nameSegment (segment : String) : StateM Names String := do
  let names ← get
  let name := fit names.fields ("#" ++ safe segment) segment
  set { names with fields := names.fields.insert name segment }
  return name

def nameSegments : List String → StateM Names (List String)
  | [] => return []
  | segment :: rest => do
      let name ← nameSegment segment
      return name :: (← nameSegments rest)

/-- Names the segments of a path, which points separate. -/
def namePath (path : String) : StateM Names String := do
  return String.intercalate "." (← nameSegments (Text.split '.' path))

def namePaths : List String → StateM Names (List String)
  | [] => return []
  | path :: rest => do
      let name ← namePath path
      return name :: (← namePaths rest)

def placeholder (hint : String) (json : Json) : StateM Names String := do
  let names ← get
  let value := Attribute.ofJson json
  let name := fit names.values (":" ++ safe hint) value
  set { names with values := names.values.insert name value }
  return name

/-- Names several values. Their numbers, from `index` on, are part of the hints. -/
def placeholders (hint : String) (index : Nat) : List Json → StateM Names (List String)
  | [] => return []
  | json :: rest => do
      let name ← placeholder (hint ++ "_" ++ toString index) json
      return name :: (← placeholders hint (index + 1) rest)

/-- The hint for an operand: the name of its parameter, else the number of the literal. -/
def hint : Option String → StateM Names String
  | some parameter => return parameter
  | none => do
      let names ← get
      let number := names.literals + 1
      set { names with literals := number }
      return "lit" ++ toString number

def check (parameter : Option String) : Check Json → StateM Names (Check String)
  | .compare comparator value => do
      return .compare comparator (← placeholder (← hint parameter) value)
  | .within values => do return .within (← placeholders (← hint parameter) 0 values)
  | .notWithin values => do return .notWithin (← placeholders (← hint parameter) 0 values)
  | .beginsWith value => do return .beginsWith (← placeholder (← hint parameter) value)
  | .contains value => do return .contains (← placeholder (← hint parameter) value)
  | .present => return .present
  | .absent => return .absent

def clause (test : StoreTest) : StateM Names StoreClause := do
  let path ← namePath test.field
  return ⟨path, ← check test.parameter test.check⟩

end Names

end DocQuery
