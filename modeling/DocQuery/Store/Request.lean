import DocQuery.Attribute.Wire
import DocQuery.Wire.Encoding
import DocQuery.Wire.Record

/-!
# Requests to a key-value store

A statement says what to read; a request is a statement with the key to start after. A query
reads one partition through a key condition, in the order of the sort key. A scan reads the
whole table or index, so it has neither a key condition nor a direction.
-/

namespace DocQuery

open Record (required optional withDefault)

/-- What queries and scans have in common. Expressions use aliases for attribute names and
placeholders for values; the two dictionaries resolve them. -/
structure Selection where
  table : String
  index : Option String
  filter : Option String
  projection : Option String
  names : Dictionary String
  values : Dictionary Attribute
  limit : Option Int
  consistentRead : Option Bool
deriving DecidableEq

structure Statement extends Selection where
  keyCondition : Option String
  forward : Option Bool
deriving DecidableEq

/-- A read of one partition, after a key. The empty key stands for the beginning. -/
structure QueryRequest extends Statement where
  startKey : Item
deriving DecidableEq

/-- A read of everything, after a key. The empty key stands for the beginning. -/
structure ScanRequest extends Selection where
  startKey : Item
deriving DecidableEq

namespace QueryRequest

def encode (request : QueryRequest) : Json :=
  .object (
    Wire.write? "ConsistentRead" .bool request.consistentRead
      ++ Wire.writeUnlessEmpty "ExclusiveStartKey" Item.encode request.startKey
      ++ Wire.writeUnlessEmpty "ExpressionAttributeNames" (Wire.object .string) request.names
      ++ Wire.writeUnlessEmpty "ExpressionAttributeValues" Item.encode request.values
      ++ Wire.write? "FilterExpression" .string request.filter
      ++ Wire.write? "IndexName" .string request.index
      ++ Wire.write? "KeyConditionExpression" .string request.keyCondition
      ++ Wire.write? "Limit" Json.ofInt request.limit
      ++ Wire.write? "ProjectionExpression" .string request.projection
      ++ Wire.write? "ScanIndexForward" .bool request.forward
      ++ [("TableName", .string request.table)])

def ofFields (table : String) (index keyCondition filter projection : Option String)
    (names : Dictionary String) (values : Dictionary Attribute) (forward : Option Bool)
    (limit : Option Int) (startKey : Item) (consistentRead : Option Bool) : QueryRequest :=
  { table, index, keyCondition, filter, projection, names, values, forward, limit, startKey,
    consistentRead }

def record : Record QueryRequest :=
  ofFields
    <$> required "TableName" .string
    <*> optional "IndexName" .string
    <*> optional "KeyConditionExpression" .string
    <*> optional "FilterExpression" .string
    <*> optional "ProjectionExpression" .string
    <*> withDefault "ExpressionAttributeNames" (.dictionary .string) []
    <*> withDefault "ExpressionAttributeValues" Item.decode []
    <*> optional "ScanIndexForward" .bool
    <*> optional "Limit" .int32
    <*> withDefault "ExclusiveStartKey" Item.decode []
    <*> optional "ConsistentRead" .bool

def decode : Decoder QueryRequest :=
  record.decode

end QueryRequest

namespace ScanRequest

def encode (request : ScanRequest) : Json :=
  .object (
    Wire.write? "ConsistentRead" .bool request.consistentRead
      ++ Wire.writeUnlessEmpty "ExclusiveStartKey" Item.encode request.startKey
      ++ Wire.writeUnlessEmpty "ExpressionAttributeNames" (Wire.object .string) request.names
      ++ Wire.writeUnlessEmpty "ExpressionAttributeValues" Item.encode request.values
      ++ Wire.write? "FilterExpression" .string request.filter
      ++ Wire.write? "IndexName" .string request.index
      ++ Wire.write? "Limit" Json.ofInt request.limit
      ++ Wire.write? "ProjectionExpression" .string request.projection
      ++ [("TableName", .string request.table)])

def ofFields (table : String) (index filter projection : Option String)
    (names : Dictionary String) (values : Dictionary Attribute) (limit : Option Int)
    (startKey : Item) (consistentRead : Option Bool) : ScanRequest :=
  { table, index, filter, projection, names, values, limit, startKey, consistentRead }

def record : Record ScanRequest :=
  ofFields
    <$> required "TableName" .string
    <*> optional "IndexName" .string
    <*> optional "FilterExpression" .string
    <*> optional "ProjectionExpression" .string
    <*> withDefault "ExpressionAttributeNames" (.dictionary .string) []
    <*> withDefault "ExpressionAttributeValues" Item.decode []
    <*> optional "Limit" .int32
    <*> withDefault "ExclusiveStartKey" Item.decode []
    <*> optional "ConsistentRead" .bool

def decode : Decoder ScanRequest :=
  record.decode

end ScanRequest

namespace Statement

/-- The query after a key. A limit given here replaces that of the statement. -/
def queryAfter (statement : Statement) (startKey : Item) (limit : Option Int) : QueryRequest :=
  { statement with limit := limit <|> statement.limit, startKey }

/-- The scan after a key. A limit given here replaces that of the statement. -/
def scanAfter (statement : Statement) (startKey : Item) (limit : Option Int) : ScanRequest :=
  { statement.toSelection with limit := limit <|> statement.limit, startKey }

/-- The wire form, which is that of the query from the beginning. -/
def encode (statement : Statement) : Json :=
  (statement.queryAfter [] none).encode

end Statement

end DocQuery
