import DocQuery.Proofs.Dictionary
import DocQuery.Wire.Encoding

/-!
# Fields that are written

An object is put together from lists of fields. What stands under a name is told here for each
way to write a field, so that it can be read off such a list name by name: a field that need not
be written stands there if there is something to write.
-/

namespace DocQuery.Wire

variable {α : Type} {name key : String} {json : Json}

/-- What is written for a list, unless it is empty. -/
def unlessEmpty (encode : List α → Json) : List α → Option Json
  | [] => none
  | items => some (encode items)

theorem unlessEmpty_eq_none_iff {encode : List α → Json} {items : List α} :
    unlessEmpty encode items = none ↔ items = [] := by
  cases items <;> simp [unlessEmpty]

theorem eq_of_unlessEmpty_eq_some {encode : List α → Json} {items : List α}
    (written : unlessEmpty encode items = some json) : json = encode items := by
  cases items with
  | nil =>
      cases written
  | cons first rest =>
      exact (Option.some.inj written).symm

@[simp]
theorem mem_write? {encode : α → Json} {value : Option α} :
    (name, json) ∈ write? key encode value ↔ name = key ∧ some json = value.map encode := by
  cases value <;> simp [write?]

@[simp]
theorem mem_writeUnlessEmpty {encode : List α → Json} {items : List α} :
    (name, json) ∈ writeUnlessEmpty key encode items ↔
      name = key ∧ some json = unlessEmpty encode items := by
  cases items <;> simp [writeUnlessEmpty, unlessEmpty]

/-- Under this name stands nothing else than the content, if there is any. -/
def Holds (fields : List (String × Json)) (name : String) (content : Option Json) : Prop :=
  ∀ json, (name, json) ∈ fields ↔ some json = content

theorem mem_of_get? {fields : List (String × Json)}
    (found : Dictionary.get? fields name = some json) : (name, json) ∈ fields := by
  induction fields with
  | nil =>
      cases found
  | cons field rest inductionHypothesis =>
      by_cases same : field.1 = name
      · have content : field.2 = json := by
          simpa [Dictionary.get?, same] using found
        rw [← same, ← content]
        exact List.mem_cons_self
      · have later : Dictionary.get? rest name = some json := by
          simpa [Dictionary.get?, same] using found
        exact List.mem_cons_of_mem field (inductionHypothesis later)

theorem Holds.get?_eq {fields : List (String × Json)} {content : Option Json}
    (holds : Holds fields name content) : Dictionary.get? fields name = content := by
  cases found : Dictionary.get? fields name with
  | some json =>
      exact (holds json).mp (mem_of_get? found)
  | none =>
      cases content with
      | none =>
          rfl
      | some json =>
          have member : name ∈ Dictionary.keys fields :=
            List.mem_map_of_mem (f := Prod.fst) ((holds json).mpr rfl)
          exact absurd member (Dictionary.get?_eq_none_iff.mp found)

end DocQuery.Wire
