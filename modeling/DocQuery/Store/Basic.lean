import DocQuery.Store.Failure
import DocQuery.Store.Output
import DocQuery.Store.Request
import DocQuery.Table.Info

/-!
# Key-value stores

A store is known by its answers. What it answers may depend on all calls made before, so a
store may change between calls, fail now and then, or answer differently when asked again.
-/

namespace DocQuery

inductive StoreCall where
  | describe (table : String)
  | query (request : QueryRequest)
  | scan (request : ScanRequest)
deriving DecidableEq

/-- The calls made so far, the first one first. -/
abbrev History := List StoreCall

/-- The answers of a store to a call after others. -/
structure Store where
  describe : History → String → Except StoreFailure TableInfo
  query : History → QueryRequest → Except StoreFailure Output
  scan : History → ScanRequest → Except StoreFailure Output

end DocQuery
