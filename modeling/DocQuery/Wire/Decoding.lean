import DocQuery.Json.Basic
import DocQuery.Word

/-!
# Reading wire values

A wire type is read from a JSON value or rejected with the first fault met. Lists are visited
item by item and dictionaries entry by entry.
-/

namespace DocQuery

inductive WireFault where
  | invalidType
  | invalidValue
  | invalidLength
  | invalidBase64
  | notSingleKey
  | missingField (name : String)
  | unknownField (name : String) (known : List String)
  | unknownVariant (name : String) (known : List String)
deriving DecidableEq

namespace WireFault

def mark (name : String) : String :=
  "`" ++ name ++ "`"

def choice : List String → String
  | [first, second] => mark first ++ " or " ++ mark second
  | [single] => mark single
  | names => "one of " ++ String.intercalate ", " (names.map mark)

def message : WireFault → String
  | .invalidType => "invalid type"
  | .invalidValue => "invalid value"
  | .invalidLength => "invalid length"
  | .invalidBase64 => "invalid base64"
  | .notSingleKey => "AttributeValue must have exactly one key"
  | .missingField name => "missing field " ++ mark name
  | .unknownField name known => "unknown field " ++ mark name ++ ", expected " ++ choice known
  | .unknownVariant name known =>
      "unknown variant " ++ mark name ++ ", expected " ++ choice known

end WireFault

abbrev Decoder (α : Type) := Json → Except WireFault α

namespace Decoder

variable {α : Type}

def string : Decoder String
  | .string value => .ok value
  | _ => .error .invalidType

def bool : Decoder Bool
  | .bool value => .ok value
  | _ => .error .invalidType

def integer (least greatest : Int) : Decoder Int
  | .number (.integer value) =>
      if least ≤ value ∧ value ≤ greatest then .ok value else .error .invalidValue
  | _ => .error .invalidType

/-- A signed integer of thirty-two bits. -/
def int32 : Decoder Int :=
  integer Word.leastInt32 Word.greatestInt32

/-- A signed integer of sixty-four bits. -/
def int64 : Decoder Int :=
  integer Word.leastInt64 Word.greatestInt64

/-- A natural number of sixty-four bits. -/
def nat64 : Decoder Nat :=
  fun json => (integer 0 Word.greatestNat64 json).map Int.toNat

def any : Decoder Json :=
  .ok

/-- A value that may be null. -/
def nullable (decode : Decoder α) : Decoder (Option α)
  | .null => .ok none
  | json => (decode json).map some

def list (decode : Decoder α) : Decoder (List α)
  | .array items => items.mapM decode
  | _ => .error .invalidType

def entriesOf (decode : Decoder α) : List (String × Json) → Except WireFault (Dictionary α)
  | [] => .ok []
  | (name, json) :: rest => do
      let value ← decode json
      return (name, value) :: (← entriesOf decode rest)

def dictionary (decode : Decoder α) : Decoder (Dictionary α)
  | .object fields => entriesOf decode fields
  | _ => .error .invalidType

def named (words : List (String × α)) (word : String) : Except WireFault α :=
  match words.lookup word with
  | some value => .ok value
  | none => .error (.unknownVariant word (words.map Prod.fst))

/-- One of several words. A word may also be the only key of an object, with null under it. -/
def variant (words : List (String × α)) : Decoder α
  | .string word => named words word
  | .object [(word, payload)] => do
      let value ← named words word
      if payload = .null then return value else .error .invalidType
  | .object _ => .error .invalidValue
  | _ => .error .invalidType

end Decoder

end DocQuery
