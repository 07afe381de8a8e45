import DocQuery.Wire.Encoding
import DocQuery.Wire.Record

/-!
# Table descriptions

What a key-value store says about a table: its keys, the types of its key attributes and its
secondary indexes.
-/

namespace DocQuery

open Record (required optional withDefault)

inductive KeyRole where
  | hash
  | range
deriving DecidableEq, Repr

inductive ScalarType where
  | string
  | number
  | binary
deriving DecidableEq, Repr

structure KeyElement where
  name : String
  role : KeyRole
deriving DecidableEq

structure TypedAttribute where
  name : String
  type : ScalarType
deriving DecidableEq

structure IndexInfo where
  name : String
  keys : List KeyElement
deriving DecidableEq

structure TableInfo where
  name : Option String
  keys : List KeyElement
  attributes : List TypedAttribute
  globalIndexes : List IndexInfo
  localIndexes : List IndexInfo
  itemCount : Option Int
deriving DecidableEq

namespace KeyRole

def words : List (String × KeyRole) :=
  [("HASH", .hash), ("RANGE", .range)]

def encode : KeyRole → Json
  | .hash => .string "HASH"
  | .range => .string "RANGE"

end KeyRole

namespace ScalarType

def words : List (String × ScalarType) :=
  [("S", .string), ("N", .number), ("B", .binary)]

def encode : ScalarType → Json
  | .string => .string "S"
  | .number => .string "N"
  | .binary => .string "B"

end ScalarType

namespace KeyElement

def encode (element : KeyElement) : Json :=
  .object [("AttributeName", .string element.name), ("KeyType", element.role.encode)]

def record : Record KeyElement :=
  KeyElement.mk
    <$> required "AttributeName" .string
    <*> required "KeyType" (.variant KeyRole.words)

def decode : Decoder KeyElement :=
  record.decode

end KeyElement

namespace TypedAttribute

def encode (definition : TypedAttribute) : Json :=
  .object [("AttributeName", .string definition.name),
    ("AttributeType", definition.type.encode)]

def record : Record TypedAttribute :=
  TypedAttribute.mk
    <$> required "AttributeName" .string
    <*> required "AttributeType" (.variant ScalarType.words)

def decode : Decoder TypedAttribute :=
  record.decode

end TypedAttribute

namespace IndexInfo

def encode (index : IndexInfo) : Json :=
  .object ([("IndexName", .string index.name)]
    ++ Wire.writeUnlessEmpty "KeySchema" (Wire.array KeyElement.encode) index.keys)

def record : Record IndexInfo :=
  IndexInfo.mk
    <$> required "IndexName" .string
    <*> withDefault "KeySchema" (.list KeyElement.decode) []

def decode : Decoder IndexInfo :=
  record.decode

end IndexInfo

namespace TableInfo

def encode (table : TableInfo) : Json :=
  .object (
    Wire.writeUnlessEmpty "AttributeDefinitions" (Wire.array TypedAttribute.encode)
        table.attributes
      ++ Wire.writeUnlessEmpty "GlobalSecondaryIndexes" (Wire.array IndexInfo.encode)
        table.globalIndexes
      ++ Wire.write? "ItemCount" Json.ofInt table.itemCount
      ++ Wire.writeUnlessEmpty "KeySchema" (Wire.array KeyElement.encode) table.keys
      ++ Wire.writeUnlessEmpty "LocalSecondaryIndexes" (Wire.array IndexInfo.encode)
        table.localIndexes
      ++ Wire.write? "TableName" .string table.name)

def record : Record TableInfo :=
  TableInfo.mk
    <$> optional "TableName" .string
    <*> withDefault "KeySchema" (.list KeyElement.decode) []
    <*> withDefault "AttributeDefinitions" (.list TypedAttribute.decode) []
    <*> withDefault "GlobalSecondaryIndexes" (.list IndexInfo.decode) []
    <*> withDefault "LocalSecondaryIndexes" (.list IndexInfo.decode) []
    <*> optional "ItemCount" .int64

def decode : Decoder TableInfo :=
  record.decode

end TableInfo

end DocQuery
