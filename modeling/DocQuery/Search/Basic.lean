import DocQuery.Search.Query
import DocQuery.Query.Order

/-!
# Searches and their hits

A search is what a search engine is asked, and hits are what it answers.
-/

namespace DocQuery

open Record (withDefault)

/-- A search in one or more indexes. The numbers are left out if all hits from the first on
are wanted, or as many as the engine gives. -/
structure Search where
  index : String
  query : Option SearchQuery
  sort : List SortField
  source : List String
  first : Option Nat
  size : Option Nat

/-- The hits of a search and the number of all matches. -/
structure Hits where
  documents : List Json
  total : Nat
deriving DecidableEq

namespace Search

def encodeBody (search : Search) : Json :=
  .object (Wire.writeUnlessEmpty "_source" Json.ofStrings search.source
    ++ Wire.write? "from" Json.ofNat search.first
    ++ Wire.write? "query" SearchQuery.encode search.query
    ++ Wire.write? "size" Json.ofNat search.size
    ++ Wire.writeUnlessEmpty "sort" (Wire.array SortField.encode) search.sort)

def encode (search : Search) : Json :=
  .object [("body", search.encodeBody), ("index", .string search.index)]

end Search

namespace Hits

def encode (hits : Hits) : Json :=
  .object [("hits", .array hits.documents), ("total", Json.ofNat hits.total)]

def record : Record Hits :=
  Hits.mk <$> withDefault "hits" (.list .any) [] <*> withDefault "total" .nat64 0

def decode : Decoder Hits :=
  record.decode

end Hits

end DocQuery
