import DocQuery.Wire.Decoding

/-!
# Reading records

A record is written as an object or as the array of its fields in the order of declaration.
The fields are visited in the order in which they are written, and the first fault met counts.

* In an object, fields that the record does not declare are passed over. A field that is
  missing is reported only after all others were found good.
* In an array, fields with a default may be left out at the end. An array that is too short is
  reported where it ends, and one that is too long after its fields were found good.

A `Record` is put together from its fields, so that the order of declaration, the checks and
the value that is read have one source.
-/

namespace DocQuery

structure FieldRule where
  name : String
  hasDefault : Bool
  check : Json → Except WireFault Unit

namespace FieldRule

def visitObject (rules : List FieldRule) : List (String × Json) → Except WireFault Unit
  | [] => .ok ()
  | (name, json) :: rest => do
      match rules.find? fun rule => rule.name == name with
      | some rule => rule.check json
      | none => pure ()
      visitObject rules rest

def visitArray : List FieldRule → List Json → Except WireFault (List (String × Json))
  | [], [] => .ok []
  | [], _ :: _ => .error .invalidLength
  | rule :: rules, [] => if rule.hasDefault then visitArray rules [] else .error .invalidLength
  | rule :: rules, json :: rest => do
      rule.check json
      return (rule.name, json) :: (← visitArray rules rest)

/-- The fields that a value writes, each found good. -/
def visit (rules : List FieldRule) : Json → Except WireFault (List (String × Json))
  | .object fields => do
      visitObject rules fields
      return fields
  | .array items => visitArray rules items
  | _ => .error .invalidType

end FieldRule

/-- A reader of records: the rules for the fields in the order of declaration, and how the
value is made of the fields that are written. -/
structure Record (α : Type) where
  rules : List FieldRule
  make : List (String × Json) → Except WireFault α

namespace Record

variable {α β : Type}

/-- A record of one field. `missing` is what the field is worth if it is not written. -/
def field (name : String) (hasDefault : Bool) (decode : Decoder α)
    (missing : Except WireFault α) : Record α where
  rules := [⟨name, hasDefault, fun json => (decode json).map fun _ => ()⟩]
  make fields :=
    match Dictionary.get? fields name with
    | some json => decode json
    | none => missing

def required (name : String) (decode : Decoder α) : Record α :=
  field name false decode (.error (.missingField name))

/-- A field that may be null, or missing in an object. -/
def optional (name : String) (decode : Decoder α) : Record (Option α) :=
  field name false decode.nullable (.ok none)

/-- A field that may be missing. -/
def withDefault (name : String) (decode : Decoder α) (missing : α) : Record α :=
  field name true decode (.ok missing)

/-- Records are put together with `<$>` and `<*>`. Of two faults of missing fields the one of
the field declared first counts. -/
instance : Applicative Record where
  pure value := ⟨[], fun _ => .ok value⟩
  map f record := ⟨record.rules, fun fields => (record.make fields).map f⟩
  seq first second :=
    ⟨first.rules ++ (second ()).rules, fun fields =>
      (first.make fields).bind fun f => ((second ()).make fields).map f⟩

def decode (record : Record α) : Decoder α :=
  fun json => do record.make (← FieldRule.visit record.rules json)

@[simp] theorem rules_map (f : α → β) (record : Record α) :
    (f <$> record).rules = record.rules :=
  rfl

@[simp] theorem make_map (f : α → β) (record : Record α) (fields : List (String × Json)) :
    (f <$> record).make fields = (record.make fields).map f :=
  rfl

@[simp] theorem rules_seq (first : Record (α → β)) (second : Record α) :
    (first <*> second).rules = first.rules ++ second.rules :=
  rfl

@[simp] theorem make_seq (first : Record (α → β)) (second : Record α)
    (fields : List (String × Json)) :
    (first <*> second).make fields =
      (first.make fields).bind fun f => (second.make fields).map f :=
  rfl

end Record

end DocQuery
