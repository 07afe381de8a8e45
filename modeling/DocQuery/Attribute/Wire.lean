import DocQuery.Attribute.Basic
import DocQuery.Base64
import DocQuery.Wire.Decoding

/-!
# The wire form of attribute values

On the wire a value is an object with one key, the tag of its type. A tag is checked before
what it holds, and a second key is reported only after that was read.
-/

namespace DocQuery.Attribute

mutual

def encode : Attribute → Json
  | .string value => Json.tagged "S" (.string value)
  | .number spelling => Json.tagged "N" (.string spelling)
  | .binary bytes => Json.tagged "B" (.string (Base64.text bytes))
  | .stringSet values => Json.tagged "SS" (Json.ofStrings values)
  | .numberSet spellings => Json.tagged "NS" (Json.ofStrings spellings)
  | .bool value => Json.tagged "BOOL" (.bool value)
  | .null flag => Json.tagged "NULL" (.bool flag)
  | .list items => Json.tagged "L" (.array (encodeItems items))
  | .map entries => Json.tagged "M" (.object (encodeEntries entries))

def encodeItems : List Attribute → List Json
  | [] => []
  | item :: rest => item.encode :: encodeItems rest

def encodeEntries : List (String × Attribute) → List (String × Json)
  | [] => []
  | (name, value) :: rest => (name, value.encode) :: encodeEntries rest

end

/-- What a tag holds when it is neither a list nor a map. -/
def decodeScalar (tag : String) (payload : Json) : Except WireFault Attribute :=
  match tag with
  | "S" => (Decoder.string payload).map .string
  | "N" => (Decoder.string payload).map .number
  | "B" => do
      match Base64.ofText? (← Decoder.string payload) with
      | some bytes => return .binary bytes
      | none => .error .invalidBase64
  | "SS" => (Decoder.string.list payload).map .stringSet
  | "NS" => (Decoder.string.list payload).map .numberSet
  | "BOOL" => (Decoder.bool payload).map .bool
  | "NULL" => (Decoder.bool payload).map .null
  | "L" | "M" => .error .invalidType
  | _ => .error (.unknownField tag tags)

mutual

def decode : Json → Except WireFault Attribute
  | .object fields => decodeTagged fields
  | _ => .error .invalidType

def decodeTagged : List (String × Json) → Except WireFault Attribute
  | [] => .error .notSingleKey
  | (tag, payload) :: others =>
      match decodePayload tag payload with
      | .error fault => .error fault
      | .ok value => if others.isEmpty then .ok value else .error .notSingleKey

def decodePayload (tag : String) : Json → Except WireFault Attribute
  | .array items =>
      if tag = "L" then (decodeItems items).map .list
      else decodeScalar tag (.array items)
  | .object fields =>
      if tag = "M" then (decodeEntries fields).map .map
      else decodeScalar tag (.object fields)
  | payload => decodeScalar tag payload

def decodeItems : List Json → Except WireFault (List Attribute)
  | [] => .ok []
  | item :: rest => do
      let value ← decode item
      return value :: (← decodeItems rest)

def decodeEntries : List (String × Json) → Except WireFault (List (String × Attribute))
  | [] => .ok []
  | (name, json) :: rest => do
      let value ← decode json
      return (name, value) :: (← decodeEntries rest)

end

end DocQuery.Attribute

namespace DocQuery.Item

def encode (item : Item) : Json :=
  .object (Attribute.encodeEntries item)

def decode : Decoder Item
  | .object fields => Attribute.decodeEntries fields
  | _ => .error .invalidType

end DocQuery.Item
