import DocQuery.Attribute.Basic
import DocQuery.Base64
import DocQuery.Json.Text

/-!
# Attribute values and plain JSON

Plain JSON becomes typed values without sets and bytes. Back again, a number is the JSON number
that its text denotes, or that text as a string if it denotes none; bytes become their Base64
text, and sets become arrays.
-/

namespace DocQuery.Attribute

mutual

def ofJson : Json → Attribute
  | .null => .null true
  | .bool value => .bool value
  | .number value => .number value.text
  | .string value => .string value
  | .array items => .list (ofJsonItems items)
  | .object fields => .map (ofJsonFields fields)

def ofJsonItems : List Json → List Attribute
  | [] => []
  | item :: rest => ofJson item :: ofJsonItems rest

def ofJsonFields : List (String × Json) → List (String × Attribute)
  | [] => []
  | (name, value) :: rest => (name, ofJson value) :: ofJsonFields rest

end

/-- The JSON number that a text denotes, else the text itself. -/
def numberToJson (spelling : String) : Json :=
  match Number.ofLenient? spelling.toList with
  | some value => .number value
  | none => .string spelling

mutual

def toJson : Attribute → Json
  | .string value => .string value
  | .number spelling => numberToJson spelling
  | .binary bytes => .string (Base64.text bytes)
  | .stringSet values => Json.ofStrings values
  | .numberSet spellings => .array (spellings.map numberToJson)
  | .bool value => .bool value
  | .null _ => .null
  | .list items => .array (toJsonItems items)
  | .map entries => .object (toJsonEntries entries)

def toJsonItems : List Attribute → List Json
  | [] => []
  | item :: rest => item.toJson :: toJsonItems rest

def toJsonEntries : List (String × Attribute) → List (String × Json)
  | [] => []
  | (name, value) :: rest => (name, value.toJson) :: toJsonEntries rest

end

/-- A value with its type in front. -/
def text (value : Attribute) : String :=
  value.tag ++ ":" ++ value.toJson.text

end DocQuery.Attribute

namespace DocQuery.Item

/-- The item with these fields. What is no object is an item without attributes. -/
def ofJson : Json → Item
  | .object fields => Attribute.ofJsonFields fields
  | _ => []

def toJson (item : Item) : Json :=
  .object (Attribute.toJsonEntries item)

end DocQuery.Item
