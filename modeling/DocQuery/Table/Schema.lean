import DocQuery.NameSet
import DocQuery.QueryFault
import DocQuery.Table.Info

/-!
# Keys of a table

A table and each of its indexes have a partition key and may have a sort key. An index without
a partition key is passed over, and of two indexes of one name the later one counts, where
local indexes come after global ones.
-/

namespace DocQuery

structure Key where
  partition : String
  sort : Option String
deriving DecidableEq

/-- The attributes that a table description names, the key of the table and those of its
indexes. -/
structure Schema where
  fields : NameSet
  primary : Key
  indexes : Dictionary Key
deriving DecidableEq

namespace Key

/-- The first attribute that plays a part in a key. -/
def attribute? (role : KeyRole) (elements : List KeyElement) : Option String :=
  (elements.find? fun element => element.role == role).map KeyElement.name

/-- The key that consists of these elements, if there is a partition key. -/
def ofElements? (elements : List KeyElement) : Option Key :=
  (attribute? .hash elements).map fun partition => ⟨partition, attribute? .range elements⟩

def contains (key : Key) (field : String) : Bool :=
  key.partition == field || key.sort == some field

def fields (key : Key) : NameSet :=
  NameSet.ofList (key.partition :: key.sort.toList)

end Key

namespace Schema

/-- The keys of the indexes that have a partition key. -/
def indexKeys (indexes : List IndexInfo) : Dictionary Key :=
  Dictionary.ofList (indexes.filterMap fun index =>
    (Key.ofElements? index.keys).map fun key => (index.name, key))

def ofInfo (table : TableInfo) : Except QueryFault Schema :=
  match Key.ofElements? table.keys with
  | none =>
      let name := table.name.getD "<unnamed>"
      .error (.store (.ofMessage .validation ("table " ++ name ++ " has no partition key")))
  | some primary =>
      let indexes := indexKeys (table.globalIndexes ++ table.localIndexes)
      let keyFields := (primary :: indexes.map Prod.snd).flatMap Key.fields
      .ok ⟨NameSet.ofList (table.attributes.map TypedAttribute.name ++ keyFields),
        primary, indexes⟩

/-- The key of an index, or that of the table itself. -/
def keyOf (schema : Schema) : Option String → Except QueryFault Key
  | none => .ok schema.primary
  | some index =>
      match schema.indexes.get? index with
      | some key => .ok key
      | none => .error (.unknownIndex index)

end Schema

end DocQuery
