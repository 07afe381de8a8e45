import DocQuery.Attribute.Plain
import DocQuery.Proofs.Attribute.Wire
import DocQuery.Proofs.Decimal.Reading

/-!
# Plain JSON survives marshalling

A plain JSON value comes back from the typed value that it becomes, also when the typed value is
written to the wire and read from it in between. Only numbers need an argument: they pass through
their text, and the text of a number is read as a number of the same kind.
-/

namespace DocQuery

/-- Every integer in the value, at any depth, fits one of the two machine types. -/
inductive Json.Fits : Json → Prop
  | null : Fits .null
  | bool (value : Bool) : Fits (.bool value)
  | number {value : Number} :
      value.Fits →
      Fits (.number value)
  | string (value : String) : Fits (.string value)
  | array {items : List Json} :
      (∀ item ∈ items, Fits item) →
      Fits (.array items)
  | object {fields : List (String × Json)} :
      (∀ field ∈ fields, Fits field.2) →
      Fits (.object fields)

namespace Attribute

theorem numberToJson_text {number : Number} (fits : number.Fits) :
    numberToJson number.text = .number number := by
  rw [numberToJson, Number.text, String.toList_ofList, Number.ofLenient?_chars fits]

theorem toJsonItems_ofJsonItems {items : List Json}
    (survives : ∀ item ∈ items, (ofJson item).toJson = item) :
    toJsonItems (ofJsonItems items) = items := by
  induction items with
  | nil =>
      rw [ofJsonItems, toJsonItems]
  | cons item rest inductionHypothesis =>
      rw [ofJsonItems, toJsonItems, survives item List.mem_cons_self,
        inductionHypothesis fun later member => survives later (List.mem_cons_of_mem item member)]

theorem toJsonEntries_ofJsonFields {fields : List (String × Json)}
    (survives : ∀ field ∈ fields, (ofJson field.2).toJson = field.2) :
    toJsonEntries (ofJsonFields fields) = fields := by
  induction fields with
  | nil =>
      rw [ofJsonFields, toJsonEntries]
  | cons field rest inductionHypothesis =>
      rw [ofJsonFields, toJsonEntries, survives field List.mem_cons_self,
        inductionHypothesis fun later member => survives later (List.mem_cons_of_mem field member)]

theorem toJson_ofJson {json : Json} (fits : json.Fits) : (ofJson json).toJson = json := by
  induction fits with
  | null =>
      rw [ofJson, toJson]
  | bool value =>
      rw [ofJson, toJson]
  | number fits =>
      rw [ofJson, toJson, numberToJson_text fits]
  | string value =>
      rw [ofJson, toJson]
  | array _ inductionHypothesis =>
      rw [ofJson, toJson, toJsonItems_ofJsonItems inductionHypothesis]
  | object _ inductionHypothesis =>
      rw [ofJson, toJson, toJsonEntries_ofJsonFields inductionHypothesis]

/-- Plain JSON comes back from its typed form, as a value and as an item, with or without the wire
in between. -/
theorem plain_lossless {json : Json} (fits : json.Fits) :
    (ofJson json).toJson = json ∧
      (decode (ofJson json).encode).map toJson = .ok json ∧
      ∀ fields, json = .object fields →
        (Item.ofJson json).toJson = json ∧
          (Item.decode (Item.ofJson json).encode).map Item.toJson = .ok json := by
  have back := toJson_ofJson fits
  refine ⟨back, ?_, ?_⟩
  · rw [decode_encode, Except.map, back]
  · intro fields isObject
    have item : (Item.ofJson json).toJson = json := by
      rw [isObject] at back ⊢
      rw [ofJson, toJson] at back
      exact back
    refine ⟨item, ?_⟩
    rw [Item.decode_encode, Except.map, item]

/-- The least and the greatest integer beside binary64 numbers that look like integers. -/
def boundaryNumbers : List Number :=
  [.integer Word.leastInt64, .integer Word.greatestNat64, .float ⟨false, 1023 * binade, by decide⟩,
    .float (Binary64.zero true)]

def boundaryJson : Json :=
  .object [("nested", .object [("none", .null)]), ("numbers", .array (boundaryNumbers.map .number))]

theorem plain_lossless_boundaryJson :
    boundaryJson.Fits ∧
      boundaryNumbers.map Number.text =
        ["-9223372036854775808", "18446744073709551615", "1.0", "-0.0"] ∧
      ((ofJson boundaryJson).toJson = boundaryJson ∧
        (decode (ofJson boundaryJson).encode).map toJson = .ok boundaryJson) ∧
      (Item.ofJson boundaryJson).toJson = boundaryJson ∧
        (Item.decode (Item.ofJson boundaryJson).encode).map Item.toJson = .ok boundaryJson := by
  have numbers : ∀ json ∈ boundaryNumbers.map Json.number, json.Fits := by
    simp only [boundaryNumbers, List.map_cons, List.map_nil, List.forall_mem_cons]
    exact ⟨.number (.integer (by decide)), .number (.integer (by decide)), .number (.float _),
      .number (.float _), by simp⟩
  have fits : boundaryJson.Fits := by
    apply Json.Fits.object
    simp only [List.forall_mem_cons]
    refine ⟨.object ?_, .array numbers, by simp⟩
    simp only [List.forall_mem_cons]
    exact ⟨.null, by simp⟩
  have texts : boundaryNumbers.map Number.text =
      ["-9223372036854775808", "18446744073709551615", "1.0", "-0.0"] := by
    decide +kernel
  rcases plain_lossless fits with ⟨value, wire, item⟩
  exact ⟨fits, texts, ⟨value, wire⟩, item _ rfl⟩

end Attribute

end DocQuery
