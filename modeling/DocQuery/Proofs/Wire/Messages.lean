import DocQuery.Proofs.Attribute.Wire
import DocQuery.Proofs.Wire.Record
import DocQuery.Search.Basic
import DocQuery.Store.Output
import DocQuery.Store.Request
import DocQuery.Table.Info

/-!
# Requests, answers and descriptions are read back

Every type that goes over the wire is read back from what it is written as: requests to a
key-value store and its answers, table descriptions and the hits of a search. The only demand is
that the integers in it have the width of their fields.
-/

namespace DocQuery

namespace Word

def IsInt32 (value : Int) : Prop :=
  leastInt32 ≤ value ∧ value ≤ greatestInt32

def IsInt64 (value : Int) : Prop :=
  leastInt64 ≤ value ∧ value ≤ greatestInt64

instance (value : Int) : Decidable (IsInt32 value) :=
  inferInstanceAs (Decidable (_ ∧ _))

instance (value : Int) : Decidable (IsInt64 value) :=
  inferInstanceAs (Decidable (_ ∧ _))

end Word

open Wire (Holds)

theorem Decoder.texts_object (texts : Dictionary String) :
    dictionary string (Wire.object .string texts) = .ok texts :=
  dictionary_object fun _ _ => rfl

theorem Decoder.nullable_int32 {value : Int} (fits : Word.IsInt32 value) :
    nullable int32 (Json.ofInt value) = .ok (some value) := by
  rw [Json.ofInt, nullable, ← Json.ofInt, int32, integer_ofInt fits]
  · rfl
  · intro null
    cases null

theorem Decoder.nullable_int64 {value : Int} (fits : Word.IsInt64 value) :
    nullable int64 (Json.ofInt value) = .ok (some value) := by
  rw [Json.ofInt, nullable, ← Json.ofInt, int64, integer_ofInt fits]
  · rfl
  · intro null
    cases null

/-- The limit of a request has thirty-two bits. -/
def Selection.Fits (selection : Selection) : Prop :=
  ∀ limit, selection.limit = some limit → Word.IsInt32 limit

theorem QueryRequest.decode_encode {request : QueryRequest} (fits : request.toSelection.Fits) :
    decode request.encode = .ok request := by
  apply Record.Reads.decode_eq
  refine Record.Reads.map ofFields (.required .string ?_ rfl)
    |>.seq (.optional .string ?_ fun _ _ => rfl)
    |>.seq (.optional .string ?_ fun _ _ => rfl)
    |>.seq (.optional .string ?_ fun _ _ => rfl)
    |>.seq (.optional .string ?_ fun _ _ => rfl)
    |>.seq (.unlessEmpty (Wire.object .string) ?_ (Decoder.texts_object _))
    |>.seq (.unlessEmpty Item.encode ?_ (Item.decode_encode _))
    |>.seq (.optional .bool ?_ fun _ _ => rfl)
    |>.seq (.optional Json.ofInt ?_ fun limit found => Decoder.nullable_int32 (fits limit found))
    |>.seq (.unlessEmpty Item.encode ?_ (Item.decode_encode _))
    |>.seq (.optional .bool ?_ fun _ _ => rfl)
  all_goals simp [Holds]

theorem ScanRequest.decode_encode {request : ScanRequest} (fits : request.toSelection.Fits) :
    decode request.encode = .ok request := by
  apply Record.Reads.decode_eq
  refine Record.Reads.map ofFields (.required .string ?_ rfl)
    |>.seq (.optional .string ?_ fun _ _ => rfl)
    |>.seq (.optional .string ?_ fun _ _ => rfl)
    |>.seq (.optional .string ?_ fun _ _ => rfl)
    |>.seq (.unlessEmpty (Wire.object .string) ?_ (Decoder.texts_object _))
    |>.seq (.unlessEmpty Item.encode ?_ (Item.decode_encode _))
    |>.seq (.optional Json.ofInt ?_ fun limit found => Decoder.nullable_int32 (fits limit found))
    |>.seq (.unlessEmpty Item.encode ?_ (Item.decode_encode _))
    |>.seq (.optional .bool ?_ fun _ _ => rfl)
  all_goals simp [Holds]

/-- The counts of an answer have thirty-two bits. -/
def Output.Fits (output : Output) : Prop :=
  Word.IsInt32 output.count ∧ Word.IsInt32 output.scannedCount

theorem Output.decode_encode {output : Output} (fits : output.Fits) :
    decode output.encode = .ok output := by
  have items : Decoder.list Item.decode (Wire.array Item.encode output.items) = .ok output.items :=
    Decoder.list_array fun item _ => item.decode_encode
  apply Record.Reads.decode_eq
  refine Record.Reads.map Output.mk (.unlessEmpty (Wire.array Item.encode) ?_ items)
    |>.seq (.withDefault Json.ofInt ?_ (Decoder.integer_ofInt fits.1))
    |>.seq (.withDefault Json.ofInt ?_ (Decoder.integer_ofInt fits.2))
    |>.seq (.unlessEmpty Item.encode ?_ (Item.decode_encode _))
  all_goals simp [Holds]

theorem KeyRole.decode_encode (role : KeyRole) :
    Decoder.variant words role.encode = .ok role := by
  cases role <;> rfl

theorem ScalarType.decode_encode (type : ScalarType) :
    Decoder.variant words type.encode = .ok type := by
  cases type <;> rfl

theorem KeyElement.decode_encode (element : KeyElement) :
    decode element.encode = .ok element := by
  apply Record.Reads.decode_eq
  refine Record.Reads.map KeyElement.mk (.required .string ?_ rfl)
    |>.seq (.required KeyRole.encode ?_ element.role.decode_encode)
  all_goals simp [Holds]

theorem TypedAttribute.decode_encode (definition : TypedAttribute) :
    decode definition.encode = .ok definition := by
  apply Record.Reads.decode_eq
  refine Record.Reads.map TypedAttribute.mk (.required .string ?_ rfl)
    |>.seq (.required ScalarType.encode ?_ definition.type.decode_encode)
  all_goals simp [Holds]

theorem Decoder.list_keys (keys : List KeyElement) :
    list KeyElement.decode (Wire.array KeyElement.encode keys) = .ok keys :=
  list_array fun element _ => element.decode_encode

theorem IndexInfo.decode_encode (index : IndexInfo) : decode index.encode = .ok index := by
  apply Record.Reads.decode_eq
  refine Record.Reads.map IndexInfo.mk (.required .string ?_ rfl)
    |>.seq (.unlessEmpty (Wire.array KeyElement.encode) ?_ (Decoder.list_keys _))
  all_goals simp [Holds]

theorem Decoder.list_indexes (indexes : List IndexInfo) :
    list IndexInfo.decode (Wire.array IndexInfo.encode indexes) = .ok indexes :=
  list_array fun index _ => index.decode_encode

/-- The number of items in a table has sixty-four bits. -/
def TableInfo.Fits (table : TableInfo) : Prop :=
  ∀ count, table.itemCount = some count → Word.IsInt64 count

theorem TableInfo.decode_encode {table : TableInfo} (fits : table.Fits) :
    decode table.encode = .ok table := by
  have attributes : Decoder.list TypedAttribute.decode
      (Wire.array TypedAttribute.encode table.attributes) = .ok table.attributes :=
    Decoder.list_array fun definition _ => definition.decode_encode
  apply Record.Reads.decode_eq
  refine Record.Reads.map TableInfo.mk (.optional .string ?_ fun _ _ => rfl)
    |>.seq (.unlessEmpty (Wire.array KeyElement.encode) ?_ (Decoder.list_keys _))
    |>.seq (.unlessEmpty (Wire.array TypedAttribute.encode) ?_ attributes)
    |>.seq (.unlessEmpty (Wire.array IndexInfo.encode) ?_ (Decoder.list_indexes _))
    |>.seq (.unlessEmpty (Wire.array IndexInfo.encode) ?_ (Decoder.list_indexes _))
    |>.seq (.optional Json.ofInt ?_ fun count found => Decoder.nullable_int64 (fits count found))
  all_goals simp [Holds]

theorem Hits.decode_encode {hits : Hits} (fits : hits.total ≤ Word.greatestNat64) :
    decode hits.encode = .ok hits := by
  have documents : Decoder.list .any (Wire.array id hits.documents) = .ok hits.documents :=
    Decoder.list_array fun document _ => rfl
  apply Record.Reads.decode_eq
  refine Record.Reads.map Hits.mk (.withDefault (Wire.array id) ?_ documents)
    |>.seq (.withDefault Json.ofNat ?_ (Decoder.nat64_ofNat fits))
  all_goals simp [Holds, Wire.array]

namespace Wire

/-- Whatever is written is read back as it was, fields that were left out included. -/
theorem messages_readBack :
    (∀ request : QueryRequest, request.toSelection.Fits →
      QueryRequest.decode request.encode = .ok request) ∧
    (∀ request : ScanRequest, request.toSelection.Fits →
      ScanRequest.decode request.encode = .ok request) ∧
    (∀ output : Output, output.Fits → Output.decode output.encode = .ok output) ∧
    (∀ table : TableInfo, table.Fits → TableInfo.decode table.encode = .ok table) ∧
    ∀ hits : Hits, hits.total ≤ Word.greatestNat64 → Hits.decode hits.encode = .ok hits := by
  refine ⟨?_, ?_, ?_, ?_, ?_⟩
  · intro request fits
    exact QueryRequest.decode_encode fits
  · intro request fits
    exact ScanRequest.decode_encode fits
  · intro output fits
    exact Output.decode_encode fits
  · intro table fits
    exact TableInfo.decode_encode fits
  · intro hits fits
    exact Hits.decode_encode fits

/-- A query with the least limit, and with values in each other. -/
def limitedQuery : QueryRequest where
  table := "orders"
  index := none
  keyCondition := some "#id = :id"
  filter := none
  projection := none
  names := [("#id", "id")]
  values := [(":id", .map [("a", .list [.null true, .binary [255]]), ("b", .numberSet [])])]
  forward := some false
  limit := some Word.leastInt32
  startKey := []
  consistentRead := none

/-- A scan of which everything is left out that need not be written. -/
def plainScan : ScanRequest where
  table := ""
  index := none
  filter := none
  projection := none
  names := []
  values := []
  limit := none
  startKey := []
  consistentRead := none

/-- An answer with an item that has no attributes. -/
def emptyItems : Output where
  items := [[], [("id", .number "1")]]
  count := Word.greatestInt32
  scannedCount := Word.leastInt32
  lastKey := []

/-- A description of a table without a name, with an index without keys. -/
def namelessTable : TableInfo where
  name := none
  keys := [⟨"id", .hash⟩, ⟨"created", .range⟩]
  attributes := [⟨"id", .binary⟩]
  globalIndexes := [⟨"by_id", []⟩]
  localIndexes := []
  itemCount := some Word.leastInt64

def nullHits : Hits where
  documents := [.null, .object []]
  total := Word.greatestNat64

theorem messages_readBack_bounds :
    (limitedQuery.toSelection.Fits ∧
      QueryRequest.decode limitedQuery.encode = .ok limitedQuery) ∧
    (plainScan.toSelection.Fits ∧
      plainScan.encode = .object [("TableName", .string "")] ∧
      ScanRequest.decode plainScan.encode = .ok plainScan) ∧
    (emptyItems.Fits ∧ Output.decode emptyItems.encode = .ok emptyItems) ∧
    (namelessTable.Fits ∧ TableInfo.decode namelessTable.encode = .ok namelessTable) ∧
    (nullHits.total ≤ Word.greatestNat64 ∧ Hits.decode nullHits.encode = .ok nullHits) := by
  have queryFits : limitedQuery.toSelection.Fits := by
    intro limit found
    cases found
    decide
  have scanFits : plainScan.toSelection.Fits := by
    intro limit found
    cases found
  have outputFits : emptyItems.Fits :=
    ⟨by decide, by decide⟩
  have tableFits : namelessTable.Fits := by
    intro count found
    cases found
    decide
  exact ⟨⟨queryFits, messages_readBack.1 limitedQuery queryFits⟩,
    ⟨scanFits, rfl, messages_readBack.2.1 plainScan scanFits⟩,
    ⟨outputFits, messages_readBack.2.2.1 emptyItems outputFits⟩,
    ⟨tableFits, messages_readBack.2.2.2.1 namelessTable tableFits⟩,
    le_rfl, messages_readBack.2.2.2.2 nullHits le_rfl⟩

end Wire

end DocQuery
