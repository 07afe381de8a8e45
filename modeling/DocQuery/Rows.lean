import DocQuery.Attribute.Plain
import DocQuery.Paging.Pager

/-!
# Rows

The results of a query as plain JSON, with the number of all matches as far as it is known.
-/

namespace DocQuery

structure Rows where
  items : List Json
  total : Nat
deriving DecidableEq

namespace Rows

def size (rows : Rows) : Nat :=
  rows.items.length

/-- The rows of a page. No other matches are known than the items of the page. -/
def ofPage (page : Page) : Rows :=
  ⟨page.items.map Item.toJson, page.size⟩

end Rows

end DocQuery
