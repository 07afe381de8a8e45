import DocQuery.Wire.Encoding
import DocQuery.Wire.Record

/-!
# Terms of a search query

A search query is a term: a test of a field, or a combination of terms that must hold, must
not hold, or of which one should hold.
-/

namespace DocQuery

open Record (optional)

structure Bounds where
  gt : Option Json
  gte : Option Json
  lt : Option Json
  lte : Option Json
deriving DecidableEq

inductive SearchQuery where
  | term (field : String) (value : Json)
  | terms (field : String) (values : List Json)
  | range (field : String) (bounds : Bounds)
  | exist (field : String)
  | wildcard (field : String) (pattern : String)
  | bool (must mustNot should : List SearchQuery)

namespace Bounds

def none : Bounds :=
  ⟨.none, .none, .none, .none⟩

def encode (bounds : Bounds) : Json :=
  .object (Wire.write? "gt" id bounds.gt ++ Wire.write? "gte" id bounds.gte
    ++ Wire.write? "lt" id bounds.lt ++ Wire.write? "lte" id bounds.lte)

def record : Record Bounds :=
  Bounds.mk
    <$> optional "gt" .any <*> optional "gte" .any <*> optional "lt" .any
    <*> optional "lte" .any

def decode : Decoder Bounds :=
  record.decode

end Bounds

namespace SearchQuery

mutual

/-- The wire form. Of the alternatives in `should` one has to hold, which is said wherever
there are any. -/
def encode : SearchQuery → Json
  | .term field value => Json.tagged "term" (Json.tagged field value)
  | .terms field values => Json.tagged "terms" (Json.tagged field (.array values))
  | .range field bounds => Json.tagged "range" (Json.tagged field bounds.encode)
  | .exist field => Json.tagged "exists" (Json.tagged "field" (.string field))
  | .wildcard field pattern =>
      Json.tagged "wildcard" (Json.tagged field (Json.tagged "value" (.string pattern)))
  | .bool must mustNot should =>
      let required := if should.isEmpty then [] else [("minimum_should_match", Json.ofNat 1)]
      Json.tagged "bool" (.object (required
        ++ Wire.writeUnlessEmpty "must" .array (encodeAll must)
        ++ Wire.writeUnlessEmpty "must_not" .array (encodeAll mustNot)
        ++ Wire.writeUnlessEmpty "should" .array (encodeAll should)))

def encodeAll : List SearchQuery → List Json
  | [] => []
  | first :: rest => first.encode :: encodeAll rest

end

/-- Whether a combination has no members. Other terms are no combinations. -/
def isEmpty? : SearchQuery → Option Bool
  | .bool must mustNot should => some (must.isEmpty && mustNot.isEmpty && should.isEmpty)
  | _ => none

end SearchQuery

end DocQuery
