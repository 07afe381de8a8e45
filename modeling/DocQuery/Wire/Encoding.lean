import DocQuery.Json.Basic

/-!
# Writing wire values

The fields of an object are put together from lists of fields, where a field that need not be
written is no field or one.
-/

namespace DocQuery

namespace Wire

variable {α : Type}

/-- A field that is written if there is a value. -/
def write? (name : String) (encode : α → Json) : Option α → List (String × Json)
  | some value => [(name, encode value)]
  | none => []

/-- A field that is written unless the list is empty. -/
def writeUnlessEmpty (name : String) (encode : List α → Json) : List α → List (String × Json)
  | [] => []
  | items => [(name, encode items)]

def array (encode : α → Json) (items : List α) : Json :=
  .array (items.map encode)

def object (encode : α → Json) (dictionary : Dictionary α) : Json :=
  .object (dictionary.map fun entry => (entry.1, encode entry.2))

end Wire

end DocQuery
