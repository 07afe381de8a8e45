import DocQuery.Wire.Decoding

/-!
# Orders of results

Results may be sorted by several fields, each in a direction of its own.
-/

namespace DocQuery

inductive Direction where
  | asc
  | desc
deriving DecidableEq, Repr

namespace Direction

def words : List (String × Direction) :=
  [("asc", .asc), ("desc", .desc)]

def text : Direction → String
  | .asc => "asc"
  | .desc => "desc"

def encode (direction : Direction) : Json :=
  .string direction.text

def decode : Decoder Direction :=
  Decoder.variant words

end Direction

structure SortField where
  field : String
  direction : Direction
deriving DecidableEq

def SortField.encode (entry : SortField) : Json :=
  Json.tagged entry.field (Json.tagged "order" entry.direction.encode)

end DocQuery
