import DocQuery.Attribute.Wire
import DocQuery.Wire.Encoding
import DocQuery.Wire.Record

/-!
# Answers of a key-value store

Queries and scans are answered alike: with the items that pass the filter, the numbers of
items returned and examined, and the key of the last item examined. An empty key says that
nothing is left to read.
-/

namespace DocQuery

open Record (withDefault)

structure Output where
  items : List Item
  count : Int
  scannedCount : Int
  lastKey : Item
deriving DecidableEq

namespace Output

/-- The answer without items after which nothing is left. -/
def empty : Output :=
  ⟨[], 0, 0, []⟩

def encode (output : Output) : Json :=
  .object ([("Count", Json.ofInt output.count)]
    ++ Wire.writeUnlessEmpty "Items" (Wire.array Item.encode) output.items
    ++ Wire.writeUnlessEmpty "LastEvaluatedKey" Item.encode output.lastKey
    ++ [("ScannedCount", Json.ofInt output.scannedCount)])

def record : Record Output :=
  Output.mk
    <$> withDefault "Items" (.list Item.decode) []
    <*> withDefault "Count" .int32 0
    <*> withDefault "ScannedCount" .int32 0
    <*> withDefault "LastEvaluatedKey" Item.decode []

def decode : Decoder Output :=
  record.decode

end Output

end DocQuery
