import DocQuery.Proofs.Fallible
import DocQuery.Proofs.Wire.Encoding
import DocQuery.Wire.Record

/-!
# Records read from objects

A record is put together from fields, and so is the proof that it reads a value from the fields
of an object. For each kind of field there is one law: a required field has to be written, an
optional one may be missing or hold a value that is not null, and one with a default may be missing
if that is its value.
-/

namespace DocQuery

open Wire (Holds)

/-- The fields pass every check of the record, and make the value. -/
structure Record.Reads {α : Type} (fields : List (String × Json)) (record : Record α) (value : α) :
    Prop where
  checks : ∀ rule ∈ record.rules, ∀ json, (rule.name, json) ∈ fields → rule.check json = .ok ()
  makes : record.make fields = .ok value

theorem FieldRule.visitObject_eq_ok {rules : List FieldRule} {fields : List (String × Json)}
    (checks : ∀ rule ∈ rules, ∀ json, (rule.name, json) ∈ fields → rule.check json = .ok ()) :
    visitObject rules fields = .ok () := by
  induction fields with
  | nil =>
      rfl
  | cons field rest inductionHypothesis =>
      have restVisited := inductionHypothesis fun rule member json written =>
        checks rule member json (List.mem_cons_of_mem field written)
      rw [visitObject, restVisited]
      cases found : rules.find? fun rule => rule.name == field.1 with
      | none =>
          rfl
      | some rule =>
          have named : rule.name = field.1 := by
            simpa using List.find?_some found
          have checked : rule.check field.2 = .ok () := by
            apply checks rule (List.mem_of_find?_eq_some found)
            rw [named]
            exact List.mem_cons_self
          simp only [checked]
          rfl

namespace Record.Reads

variable {α β : Type} {fields : List (String × Json)} {name : String}

/-- Such a record is read from the object with these fields. -/
theorem decode_eq {record : Record α} {value : α} (reads : Reads fields record value) :
    record.decode (.object fields) = .ok value := by
  simp only [Record.decode, FieldRule.visit, FieldRule.visitObject_eq_ok reads.checks]
  exact reads.makes

theorem map {record : Record α} {value : α} (f : α → β) (reads : Reads fields record value) :
    Reads fields (f <$> record) (f value) where
  checks := reads.checks
  makes := by
    rw [make_map, reads.makes]
    rfl

theorem seq {first : Record (α → β)} {second : Record α} {f : α → β} {value : α}
    (firstReads : Reads fields first f) (secondReads : Reads fields second value) :
    Reads fields (first <*> second) (f value) where
  checks := by
    intro rule member
    rw [rules_seq] at member
    rcases List.mem_append.mp member with inFirst | inSecond
    · exact firstReads.checks rule inFirst
    · exact secondReads.checks rule inSecond
  makes := by
    rw [make_seq, firstReads.makes, secondReads.makes]
    rfl

/-- A field is read if what is written decodes to the value, and if the value is what a missing
field is worth where nothing is written. -/
theorem field {decode : Decoder α} {missing : Except WireFault α} {value : α}
    {content : Option Json} (hasDefault : Bool) (holds : Holds fields name content)
    (found : ∀ json, content = some json → decode json = .ok value)
    (notFound : content = none → missing = .ok value) :
    Reads fields (Record.field name hasDefault decode missing) value where
  checks := by
    intro rule member json written
    obtain rfl := List.mem_singleton.mp member
    have decoded := found json ((holds json).mp written).symm
    simp only [decoded]
    rfl
  makes := by
    simp only [Record.field, holds.get?_eq]
    cases content with
    | none =>
        exact notFound rfl
    | some json =>
        exact found json rfl

theorem required {decode : Decoder α} {value : α} (encode : α → Json)
    (holds : Holds fields name (some (encode value)))
    (decoded : decode (encode value) = .ok value) :
    Reads fields (Record.required name decode) value := by
  apply field false holds
  · intro json written
    rwa [← Option.some.inj written]
  · intro nothing
    cases nothing

theorem optional {decode : Decoder α} {value : Option α} (encode : α → Json)
    (holds : Holds fields name (value.map encode))
    (decoded : ∀ content, value = some content →
      decode.nullable (encode content) = .ok (some content)) :
    Reads fields (Record.optional name decode) value := by
  apply field false holds
  · intro json written
    cases value with
    | none =>
        cases written
    | some content =>
        rw [← Option.some.inj written]
        exact decoded content rfl
  · intro nothing
    cases value with
    | none =>
        rfl
    | some content =>
        cases nothing

theorem withDefault {decode : Decoder α} {value missing : α} (encode : α → Json)
    (holds : Holds fields name (some (encode value)))
    (decoded : decode (encode value) = .ok value) :
    Reads fields (Record.withDefault name decode missing) value := by
  apply field true holds
  · intro json written
    rwa [← Option.some.inj written]
  · intro nothing
    cases nothing

/-- A list that is not written when it is empty is read as the empty list where it is missing. -/
theorem unlessEmpty {decode : Decoder (List α)} {items : List α} (encode : List α → Json)
    (holds : Holds fields name (Wire.unlessEmpty encode items))
    (decoded : decode (encode items) = .ok items) :
    Reads fields (Record.withDefault name decode []) items := by
  apply field true holds
  · intro json written
    rwa [Wire.eq_of_unlessEmpty_eq_some written]
  · intro nothing
    rw [Wire.unlessEmpty_eq_none_iff.mp nothing]

end Record.Reads

namespace Decoder

variable {α : Type} {decode : Decoder α} {encode : α → Json}

theorem list_array {items : List α} (decoded : ∀ item ∈ items, decode (encode item) = .ok item) :
    list decode (Wire.array encode items) = .ok items := by
  simp only [list, Wire.array]
  induction items with
  | nil =>
      rfl
  | cons first rest inductionHypothesis =>
      have restDecoded := inductionHypothesis fun item member =>
        decoded item (List.mem_cons_of_mem first member)
      rw [List.map_cons, List.mapM_cons, decoded first List.mem_cons_self, restDecoded]
      rfl

theorem dictionary_object {entries : Dictionary α}
    (decoded : ∀ entry ∈ entries, decode (encode entry.2) = .ok entry.2) :
    dictionary decode (Wire.object encode entries) = .ok entries := by
  simp only [dictionary, Wire.object]
  induction entries with
  | nil =>
      rfl
  | cons first rest inductionHypothesis =>
      have restDecoded := inductionHypothesis fun entry member =>
        decoded entry (List.mem_cons_of_mem first member)
      rw [List.map_cons, entriesOf, decoded first List.mem_cons_self, restDecoded]
      rfl

theorem integer_ofInt {least greatest value : Int} (fits : least ≤ value ∧ value ≤ greatest) :
    integer least greatest (Json.ofInt value) = .ok value := by
  simp [integer, Json.ofInt, fits]

theorem nat64_ofNat {value : Nat} (fits : value ≤ Word.greatestNat64) :
    nat64 (Json.ofNat value) = .ok value := by
  have bounds : (0 : Int) ≤ value ∧ (value : Int) ≤ Word.greatestNat64 := by
    omega
  rw [nat64, Json.ofNat, ← Json.ofInt, integer_ofInt bounds]
  rfl

end Decoder

end DocQuery
