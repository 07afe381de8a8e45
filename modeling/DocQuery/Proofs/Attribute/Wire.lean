import DocQuery.Attribute.Wire
import DocQuery.Proofs.Base64
import DocQuery.Proofs.Fallible
import Mathlib.Data.Set.List

/-!
# The wire form of attribute values is a bijection

A value is read back from its wire form, and a wire form that is read is the one that the value
is written as. What is accepted are therefore the images of the values, which are described by
their tags: an object with one key, a known tag, over what this tag holds.
-/

namespace DocQuery

/-- An object with one key, a tag, over what the tag holds. -/
inductive Json.IsAttribute : Json → Prop
  | string (value : String) : IsAttribute (tagged "S" (.string value))
  | number (spelling : String) : IsAttribute (tagged "N" (.string spelling))
  | binary {text : String} :
      Base64.IsStandard text.toList →
      IsAttribute (tagged "B" (.string text))
  | stringSet (values : List String) : IsAttribute (tagged "SS" (ofStrings values))
  | numberSet (spellings : List String) : IsAttribute (tagged "NS" (ofStrings spellings))
  | bool (value : Bool) : IsAttribute (tagged "BOOL" (.bool value))
  | null (flag : Bool) : IsAttribute (tagged "NULL" (.bool flag))
  | list {items : List Json} :
      (∀ item ∈ items, IsAttribute item) →
      IsAttribute (tagged "L" (.array items))
  | map {fields : List (String × Json)} :
      (∀ field ∈ fields, IsAttribute field.2) →
      IsAttribute (tagged "M" (.object fields))

namespace Decoder

theorem string_eq_ok_iff {json : Json} {value : String} :
    string json = .ok value ↔ json = .string value := by
  cases json <;> simp [string]

theorem bool_eq_ok_iff {json : Json} {value : Bool} :
    bool json = .ok value ↔ json = .bool value := by
  cases json <;> simp [bool]

theorem strings_eq_ok_iff {json : Json} {values : List String} :
    string.list json = .ok values ↔ json = Json.ofStrings values := by
  cases json with
  | array items =>
      simp only [list, Json.ofStrings, Json.array.injEq]
      induction items generalizing values with
      | nil =>
          cases values <;> simp [pure, Except.pure]
      | cons item rest inductionHypothesis =>
          simp only [List.mapM_cons, Fallible.bind_eq_ok_iff, Fallible.pure_eq_ok_iff,
            string_eq_ok_iff, inductionHypothesis]
          constructor
          · rintro ⟨first, rfl, others, rfl, rfl⟩
            rfl
          · intro same
            cases values with
            | nil =>
                cases same
            | cons first others =>
                obtain ⟨rfl, rfl⟩ := List.cons.inj same
                exact ⟨first, rfl, others, rfl, rfl⟩
  | _ =>
      simp [list, Json.ofStrings]

end Decoder

namespace Attribute

theorem encode_of_decodeScalar {tag : String} {payload : Json} {value : Attribute}
    (decoded : decodeScalar tag payload = .ok value) :
    value.encode = Json.tagged tag payload := by
  unfold decodeScalar at decoded
  split at decoded
  case h_3 =>
    rw [Fallible.bind_eq_ok_iff] at decoded
    obtain ⟨text, textRead, bytesRead⟩ := decoded
    obtain rfl := Decoder.string_eq_ok_iff.mp textRead
    split at bytesRead
    · next bytes found =>
        obtain rfl := Fallible.pure_eq_ok_iff.mp bytesRead
        rw [encode, Base64.ofText?_eq_some_iff.mp found]
    · cases bytesRead
  case h_8 | h_9 | h_10 =>
    cases decoded
  all_goals
    obtain ⟨content, contentRead, rfl⟩ := Fallible.map_eq_ok_iff.mp decoded
    rw [encode]
    congr 1
    symm
  case h_1 | h_2 =>
    exact Decoder.string_eq_ok_iff.mp contentRead
  case h_4 | h_5 =>
    exact Decoder.strings_eq_ok_iff.mp contentRead
  case h_6 | h_7 =>
    exact Decoder.bool_eq_ok_iff.mp contentRead

theorem decode_tagged (tag : String) (payload : Json) :
    decode (Json.tagged tag payload) = decodePayload tag payload := by
  rw [Json.tagged, decode, decodeTagged]
  cases decodePayload tag payload with
  | error fault =>
      rfl
  | ok value =>
      rfl

theorem decodePayload_eq_decodeScalar {tag : String} (payload : Json)
    (notList : tag ≠ "L") (notMap : tag ≠ "M") :
    decodePayload tag payload = decodeScalar tag payload := by
  cases payload <;> simp [decodePayload, notList, notMap]

/-- A tag over what it holds is read if the tag is no list or map. -/
theorem decode_of_decodeScalar {tag : String} {payload : Json} {value : Attribute}
    (notList : tag ≠ "L") (notMap : tag ≠ "M")
    (decoded : decodeScalar tag payload = .ok value) :
    decode (Json.tagged tag payload) = .ok value := by
  rw [decode_tagged, decodePayload_eq_decodeScalar payload notList notMap, decoded]

mutual

theorem decode_encode : ∀ value : Attribute, decode value.encode = .ok value
  | .string value => by
      rw [encode]
      exact decode_of_decodeScalar (by decide) (by decide) rfl
  | .number spelling => by
      rw [encode]
      exact decode_of_decodeScalar (by decide) (by decide) rfl
  | .binary bytes => by
      have read : Base64.ofText? (Base64.text bytes) = some bytes :=
        Base64.ofText?_eq_some_iff.mpr rfl
      rw [encode]
      apply decode_of_decodeScalar (by decide) (by decide)
      simp only [decodeScalar, Decoder.string, Fallible.bind_eq_ok_iff]
      exact ⟨_, rfl, by rw [read]; rfl⟩
  | .stringSet values => by
      have read : Decoder.string.list (Json.ofStrings values) = .ok values :=
        Decoder.strings_eq_ok_iff.mpr rfl
      rw [encode]
      apply decode_of_decodeScalar (by decide) (by decide)
      rw [decodeScalar, read]
      rfl
  | .numberSet spellings => by
      have read : Decoder.string.list (Json.ofStrings spellings) = .ok spellings :=
        Decoder.strings_eq_ok_iff.mpr rfl
      rw [encode]
      apply decode_of_decodeScalar (by decide) (by decide)
      rw [decodeScalar, read]
      rfl
  | .bool value => by
      rw [encode]
      exact decode_of_decodeScalar (by decide) (by decide) rfl
  | .null flag => by
      rw [encode]
      exact decode_of_decodeScalar (by decide) (by decide) rfl
  | .list items => by
      rw [encode, decode_tagged, decodePayload, if_pos rfl, decodeItems_encodeItems items]
      rfl
  | .map entries => by
      rw [encode, decode_tagged, decodePayload, if_pos rfl, decodeEntries_encodeEntries entries]
      rfl

theorem decodeItems_encodeItems :
    ∀ items : List Attribute, decodeItems (encodeItems items) = .ok items
  | [] => by
      rw [encodeItems, decodeItems]
  | item :: rest => by
      rw [encodeItems, decodeItems, decode_encode item, decodeItems_encodeItems rest]
      rfl

theorem decodeEntries_encodeEntries :
    ∀ entries : List (String × Attribute), decodeEntries (encodeEntries entries) = .ok entries
  | [] => by
      rw [encodeEntries, decodeEntries]
  | (name, value) :: rest => by
      rw [encodeEntries, decodeEntries, decode_encode value, decodeEntries_encodeEntries rest]
      rfl

end

mutual

/-- What is read is the value that is written so. The induction follows the reader, since an
item of a list stands two levels below the object with the tag. -/
theorem encode_of_decode :
    ∀ {json : Json} {value : Attribute}, decode json = .ok value → value.encode = json
  | .object fields, value, decoded => by
      rw [decode] at decoded
      exact encode_of_decodeTagged decoded
  | .null, _, decoded | .bool _, _, decoded | .number _, _, decoded | .string _, _, decoded
  | .array _, _, decoded => by
      simp [decode] at decoded

theorem encode_of_decodeTagged :
    ∀ {fields : List (String × Json)} {value : Attribute},
      decodeTagged fields = .ok value → value.encode = .object fields
  | [], value, decoded => by
      simp [decodeTagged] at decoded
  | (tag, payload) :: others, value, decoded => by
      rw [decodeTagged] at decoded
      split at decoded
      · cases decoded
      · next content payloadRead =>
          split at decoded
          · next alone =>
              obtain rfl := List.isEmpty_iff.mp alone
              obtain rfl := Except.ok.inj decoded
              exact encode_of_decodePayload payloadRead
          · cases decoded

theorem encode_of_decodePayload :
    ∀ {tag : String} {payload : Json} {value : Attribute},
      decodePayload tag payload = .ok value → value.encode = Json.tagged tag payload
  | tag, .array items, value, decoded => by
      rw [decodePayload] at decoded
      split at decoded
      · next isList =>
          obtain ⟨values, itemsRead, rfl⟩ := Fallible.map_eq_ok_iff.mp decoded
          rw [encode, isList, encodeItems_of_decodeItems itemsRead]
      · exact encode_of_decodeScalar decoded
  | tag, .object fields, value, decoded => by
      rw [decodePayload] at decoded
      split at decoded
      · next isMap =>
          obtain ⟨entries, fieldsRead, rfl⟩ := Fallible.map_eq_ok_iff.mp decoded
          rw [encode, isMap, encodeEntries_of_decodeEntries fieldsRead]
      · exact encode_of_decodeScalar decoded
  | tag, .null, value, decoded | tag, .bool _, value, decoded | tag, .number _, value, decoded
  | tag, .string _, value, decoded => by
      apply encode_of_decodeScalar
      simpa [decodePayload] using decoded

theorem encodeItems_of_decodeItems :
    ∀ {items : List Json} {values : List Attribute},
      decodeItems items = .ok values → encodeItems values = items
  | [], values, decoded => by
      rw [decodeItems] at decoded
      obtain rfl := Except.ok.inj decoded
      rw [encodeItems]
  | item :: rest, values, decoded => by
      simp only [decodeItems, Fallible.bind_eq_ok_iff, Fallible.pure_eq_ok_iff] at decoded
      obtain ⟨value, itemRead, others, restRead, rfl⟩ := decoded
      rw [encodeItems, encode_of_decode itemRead, encodeItems_of_decodeItems restRead]

theorem encodeEntries_of_decodeEntries :
    ∀ {fields : List (String × Json)} {entries : List (String × Attribute)},
      decodeEntries fields = .ok entries → encodeEntries entries = fields
  | [], entries, decoded => by
      rw [decodeEntries] at decoded
      obtain rfl := Except.ok.inj decoded
      rw [encodeEntries]
  | (name, json) :: rest, entries, decoded => by
      simp only [decodeEntries, Fallible.bind_eq_ok_iff, Fallible.pure_eq_ok_iff] at decoded
      obtain ⟨value, jsonRead, others, restRead, rfl⟩ := decoded
      rw [encodeEntries, encode_of_decode jsonRead, encodeEntries_of_decodeEntries restRead]

end

theorem encodeItems_eq_map (items : List Attribute) : encodeItems items = items.map encode := by
  induction items with
  | nil =>
      rw [encodeItems, List.map_nil]
  | cons item rest inductionHypothesis =>
      rw [encodeItems, inductionHypothesis, List.map_cons]

theorem encodeEntries_eq_map (entries : List (String × Attribute)) :
    encodeEntries entries = entries.map (Prod.map id encode) := by
  induction entries with
  | nil =>
      rw [encodeEntries, List.map_nil]
  | cons entry rest inductionHypothesis =>
      rw [encodeEntries, inductionHypothesis, List.map_cons]
      rfl

mutual

theorem isAttribute_encode : ∀ value : Attribute, value.encode.IsAttribute
  | .string value => by
      rw [encode]
      exact .string value
  | .number spelling => by
      rw [encode]
      exact .number spelling
  | .binary bytes => by
      rw [encode]
      apply Json.IsAttribute.binary
      rw [Base64.isStandard_iff, Base64.text, String.toList_ofList]
      exact ⟨bytes, rfl⟩
  | .stringSet values => by
      rw [encode]
      exact .stringSet values
  | .numberSet spellings => by
      rw [encode]
      exact .numberSet spellings
  | .bool value => by
      rw [encode]
      exact .bool value
  | .null flag => by
      rw [encode]
      exact .null flag
  | .list items => by
      rw [encode]
      exact .list (isAttribute_of_mem_encodeItems items)
  | .map entries => by
      rw [encode]
      exact .map (isAttribute_of_mem_encodeEntries entries)

theorem isAttribute_of_mem_encodeItems :
    ∀ items : List Attribute, ∀ json ∈ encodeItems items, json.IsAttribute
  | [], json, member => by
      simp [encodeItems] at member
  | item :: rest, json, member => by
      rw [encodeItems, List.mem_cons] at member
      rcases member with rfl | later
      · exact isAttribute_encode item
      · exact isAttribute_of_mem_encodeItems rest json later

theorem isAttribute_of_mem_encodeEntries :
    ∀ entries : List (String × Attribute), ∀ field ∈ encodeEntries entries,
      field.2.IsAttribute
  | [], field, member => by
      simp [encodeEntries] at member
  | (name, value) :: rest, field, member => by
      rw [encodeEntries, List.mem_cons] at member
      rcases member with rfl | later
      · exact isAttribute_encode value
      · exact isAttribute_of_mem_encodeEntries rest field later

end

theorem exists_encode_of_isAttribute {json : Json} (isAttribute : json.IsAttribute) :
    ∃ value : Attribute, value.encode = json := by
  induction isAttribute with
  | string value =>
      exact ⟨.string value, by rw [encode]⟩
  | number spelling =>
      exact ⟨.number spelling, by rw [encode]⟩
  | @binary text standard =>
      obtain ⟨bytes, written⟩ := Base64.isStandard_iff.mp standard
      exact ⟨.binary bytes, by rw [encode, Base64.text, written, String.ofList_toList]⟩
  | stringSet values =>
      exact ⟨.stringSet values, by rw [encode]⟩
  | numberSet spellings =>
      exact ⟨.numberSet spellings, by rw [encode]⟩
  | bool value =>
      exact ⟨.bool value, by rw [encode]⟩
  | null flag =>
      exact ⟨.null flag, by rw [encode]⟩
  | @list items _ inductionHypothesis =>
      have inRange : items ∈ Set.range (List.map encode) := by
        rw [Set.range_list_map]
        exact inductionHypothesis
      obtain ⟨values, written⟩ := inRange
      exact ⟨.list values, by rw [encode, encodeItems_eq_map, written]⟩
  | @map fields _ inductionHypothesis =>
      have inRange : fields ∈ Set.range (List.map (Prod.map id encode)) := by
        rw [Set.range_list_map]
        intro field member
        obtain ⟨value, written⟩ := inductionHypothesis field member
        exact ⟨(field.1, value), by rw [Prod.map, written]; rfl⟩
      obtain ⟨entries, written⟩ := inRange
      exact ⟨.map entries, by rw [encode, encodeEntries_eq_map, written]⟩

/-- Reading and writing are inverse to each other, and what is read are the objects with one
known tag over what this tag holds. -/
theorem decode_bijection :
    (∀ (json : Json) (value : Attribute), decode json = .ok value ↔ value.encode = json) ∧
    ∀ json : Json, (∃ value, decode json = .ok value) ↔ json.IsAttribute := by
  have inverse (json : Json) (value : Attribute) :
      decode json = .ok value ↔ value.encode = json := by
    constructor
    · exact encode_of_decode
    · rintro rfl
      exact decode_encode value
  refine ⟨inverse, ?_⟩
  intro json
  simp only [inverse]
  constructor
  · rintro ⟨value, rfl⟩
    exact isAttribute_encode value
  · exact exists_encode_of_isAttribute

end Attribute

theorem Item.decode_encode (item : Item) : Item.decode item.encode = .ok item :=
  Attribute.decodeEntries_encodeEntries item

end DocQuery
