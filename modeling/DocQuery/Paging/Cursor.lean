import DocQuery.Attribute.Basic

/-!
# Cursors

A cursor is the key after which reading goes on. It is never the empty key, by which a store
says that nothing is left.
-/

namespace DocQuery

/-- A key to go on after. -/
structure Cursor where
  key : Item
  nonempty : key ≠ []
deriving DecidableEq

namespace Cursor

/-- The cursor for a key that a store gave; the empty key has none. -/
def ofKey? (key : Item) : Option Cursor :=
  if nonempty : key ≠ [] then some ⟨key, nonempty⟩ else none

/-- The attributes of an item with these names, if it has all of them. -/
def attributes? (item : Item) : List String → Option (List (String × Attribute))
  | [] => some []
  | field :: rest => do
      let value ← Dictionary.get? item field
      return (field, value) :: (← attributes? item rest)

/-- The cursor to go on after an item whose key has these attributes. -/
def ofItem? (item : Item) (fields : List String) : Option Cursor := do
  ofKey? (Dictionary.ofList (← attributes? item fields))

/-- The key that a cursor stands for. Without a cursor reading begins at the beginning, which
is after the empty key. -/
def keyOrEmpty : Option Cursor → Item
  | some cursor => cursor.key
  | none => []

theorem ofKey?_key (cursor : Cursor) : ofKey? cursor.key = some cursor := by
  simp [ofKey?, cursor.nonempty]

theorem keyOrEmpty_ofKey? (key : Item) : keyOrEmpty (ofKey? key) = key := by
  unfold ofKey?
  split
  · rfl
  · next empty => simpa [keyOrEmpty, eq_comm] using empty

end Cursor

end DocQuery
