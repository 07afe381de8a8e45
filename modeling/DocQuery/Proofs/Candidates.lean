import DocQuery.Proofs.Search.Meaning
import DocQuery.Proofs.Store.Clauses

/-!
# The candidates of a list

A field is compared with the members of a list. On the way every text among them is cut at its
commas, and blanks around the pieces and empty pieces are dropped, wherever the text stands. So the
candidates are the members of the list exactly if each text among them has no comma, is not empty,
and neither begins nor ends with a blank. Both compilers take the same candidates.
-/

namespace DocQuery

namespace Predicate

/-- The text is its own only candidate: it has no comma, and a first and a last character that are
not blank. -/
structure IsWhole (text : String) : Prop where
  uncut : ',' ∉ text.toList
  bare : Text.Bare text.toList

/-- The candidates that are taken from the value of a list. -/
def taken (value : Json) : List Json :=
  (members value).flatMap candidatesOf

section Taken

variable {text : String} {value : Json}

theorem IsWhole.candidatesOf_eq (whole : IsWhole text) :
    candidatesOf (.string text) = [.string text] := by
  have onePiece : Text.pieces ',' text.toList = [text.toList] :=
    Text.pieces_of_not_mem whole.uncut
  have nonempty := whole.bare.ne_nil
  simp [candidatesOf, onePiece, whole.bare.trim_eq, nonempty]

/-- What is cut out of a text is not cut further. -/
theorem isWhole_of_mem_candidatesOf (member : .string text ∈ candidatesOf value) :
    IsWhole text := by
  cases value with
  | string list =>
      simp only [candidatesOf, List.mem_map, List.mem_filter, Json.string.injEq] at member
      obtain ⟨entry, ⟨⟨piece, isPiece, trimmed⟩, kept⟩, spelled⟩ := member
      have letters : text.toList = entry := by
        rw [← spelled, String.toList_ofList]
      have nonempty : Text.trim piece ≠ [] := by
        simpa [trimmed] using kept
      have uncut : ',' ∉ Text.trim piece := by
        intro comma
        exact Text.not_mem_of_mem_pieces isPiece (Text.mem_of_mem_trim comma)
      rw [trimmed] at nonempty uncut
      have bare : Text.Bare entry := trimmed ▸ Text.bare_trim (trimmed ▸ nonempty)
      exact ⟨letters ▸ uncut, letters ▸ bare⟩
  | _ =>
      simp [candidatesOf] at member

/-- The members are taken as they are exactly if the texts among them are whole. -/
theorem taken_eq_members_iff :
    taken value = members value ↔ ∀ text, .string text ∈ members value → IsWhole text := by
  constructor
  · intro same text member
    rw [← same] at member
    obtain ⟨source, _, inSource⟩ := List.mem_flatMap.mp member
    exact isWhole_of_mem_candidatesOf inSource
  · intro whole
    have single : ∀ item ∈ members value, candidatesOf item = [item] := by
      intro item member
      cases item with
      | string text =>
          exact (whole text member).candidatesOf_eq
      | _ =>
          rfl
    rw [taken, List.flatMap_congr single]
    exact List.flatMap_singleton' _

end Taken

variable {parameters : Parameters} {predicate : Predicate} {value : Json}

theorem candidates_eq (resolved : predicate.value parameters = .ok value) :
    predicate.candidates parameters =
      if taken value = [] then .error (predicate.unsupported .emptyList)
      else .ok (taken value) := by
  have sameMembers : (members value).flatMap candidatesOf = taken value := rfl
  simp only [candidates, resolved, bind, Except.bind, sameMembers]
  cases taken value with
  | nil =>
      rfl
  | cons first others =>
      rfl

/-- The test of a list, which is negated for `NOT IN`. -/
def memberTest (operator : Operator) (candidates : List Json) : Test :=
  if operator = .isIn then .isIn candidates else .notIn candidates

def memberCheck (operator : Operator) (candidates : List Json) : Check Json :=
  if operator = .isIn then .within candidates else .notWithin candidates

theorem ofTest?_memberTest (operator : Operator) (candidates : List Json) :
    Check.ofTest? (memberTest operator candidates) = some (memberCheck operator candidates) := by
  by_cases isIn : operator = .isIn
  · rw [memberTest, memberCheck, if_pos isIn, if_pos isIn]
    rfl
  · rw [memberTest, memberCheck, if_neg isIn, if_neg isIn]
    rfl

theorem searchLeaf_memberTest (field : String) (operator : Operator) (candidates : List Json) :
    SearchLeaf.ofTest field (memberTest operator candidates) = .terms field candidates := by
  by_cases isIn : operator = .isIn
  · rw [memberTest, if_pos isIn]
    rfl
  · rw [memberTest, if_neg isIn]
    rfl

theorem test_eq_memberTest (operator : predicate.operator = .isIn ∨ predicate.operator = .notIn) :
    predicate.test parameters =
      (predicate.candidates parameters).map (memberTest predicate.operator) := by
  rcases operator with isIn | notIn
  · simp only [test, isIn]
    rfl
  · simp only [test, notIn]
    rfl

/-- The predicate is neither tested nor compiled, because its list has no candidates. -/
structure LacksCandidates (parameters : Parameters) (predicate : Predicate) : Prop where
  untested : predicate.test parameters = .error (predicate.unsupported .emptyList)
  unsearched : ∀ query : Query, query.parameters = parameters → predicate ∈ query.predicates →
    ¬ ∃ search, SearchPlan.compile query = .ok search
  unstored : ∀ (query : Query) (schema : Schema) (consistentRead : Bool),
    query.parameters = parameters → predicate ∈ query.predicates →
      ¬ ∃ plan, StorePlan.compile query schema consistentRead = .ok plan

/-- Both compilers compare the field of the predicate with these candidates, in this order: every
search for a query that has the predicate in its condition has them as its terms, and so has every
statement for such a query under the placeholders of a clause. -/
structure ComparesWith (parameters : Parameters) (predicate : Predicate)
    (candidates : List Json) : Prop where
  tested : predicate.test parameters = .ok (memberTest predicate.operator candidates)
  searched : ∀ (query : Query) (search : Search),
    query.parameters = parameters → predicate ∈ query.predicates →
      SearchPlan.compile query = .ok search → search.Tests (.terms predicate.field candidates)
  stored : ∀ (query : Query) (schema : Schema) (consistentRead : Bool) (plan : StorePlan),
    query.parameters = parameters → predicate ∈ query.predicates →
      StorePlan.compile query schema consistentRead = .ok plan →
        plan.statement.Tests ⟨predicate.field, predicate.parameter?,
          memberCheck predicate.operator candidates⟩

theorem lacksCandidates
    (untested : predicate.test parameters = .error (predicate.unsupported .emptyList)) :
    LacksCandidates parameters predicate := by
  have noTest : ¬ ∃ asked, predicate.test parameters = .ok asked := by
    rintro ⟨asked, tested⟩
    rw [untested] at tested
    cases tested
  constructor
  · exact untested
  · intro query sameParameters member compiles
    have tests := (SearchPlan.exists_compile_iff.mp compiles).2 predicate member
    rw [sameParameters] at tests
    exact noTest tests
  · intro query schema consistentRead sameParameters member compiles
    have lowers := (StorePlan.exists_storeTest_of_compile compiles).2 predicate member
    rw [sameParameters] at lowers
    exact noTest (exists_storeTest_iff.mp lowers).1

theorem comparesWith {candidates : List Json}
    (tested : predicate.test parameters = .ok (memberTest predicate.operator candidates)) :
    ComparesWith parameters predicate candidates := by
  constructor
  · exact tested
  · intro query search sameParameters member compiled
    obtain ⟨leaf, found, tests⟩ := SearchPlan.exists_leaf_of_compile compiled member
    rw [sameParameters, searchLeaf?, tested] at found
    have sameLeaf := Option.some.inj found
    rwa [← sameLeaf, searchLeaf_memberTest] at tests
  · intro query schema consistentRead plan sameParameters member compiled
    obtain ⟨test, lowered, tests⟩ := StorePlan.exists_tests_of_compile compiled member
    have expected : predicate.storeTest parameters = .ok ⟨predicate.field, predicate.parameter?,
        memberCheck predicate.operator candidates⟩ := by
      simp [storeTest, tested, ofTest?_memberTest, bind, Except.bind, pure, Except.pure]
    rw [sameParameters, expected] at lowered
    rwa [Except.ok.inj lowered]

/-- A predicate with a list is compared with the candidates taken from it, or compiles nowhere if
there are none. Each text among the candidates is whole, and the candidates are the members of the
list exactly if all texts among these are. -/
theorem compile_candidates
    (operator : predicate.operator = .isIn ∨ predicate.operator = .notIn)
    (resolved : predicate.value parameters = .ok value) :
    (taken value = [] → LacksCandidates parameters predicate) ∧
    (taken value ≠ [] → ComparesWith parameters predicate (taken value)) ∧
    (∀ text, .string text ∈ taken value → IsWhole text) ∧
    (taken value = members value ↔ ∀ text, .string text ∈ members value → IsWhole text) := by
  have tested : predicate.test parameters =
      (predicate.candidates parameters).map (memberTest predicate.operator) :=
    test_eq_memberTest operator
  rw [candidates_eq resolved] at tested
  refine ⟨?_, ?_, ?_, taken_eq_members_iff⟩
  · intro nothing
    rw [if_pos nothing] at tested
    exact lacksCandidates tested
  · intro nonempty
    rw [if_neg nonempty] at tested
    exact comparesWith tested
  · intro text member
    obtain ⟨source, _, inSource⟩ := List.mem_flatMap.mp member
    exact isWhole_of_mem_candidatesOf inSource

/-- A query for the places whose city is, or is not, in the list named `cities`. -/
def cityQuery (operator : Operator) (cities : List Json) : Query where
  sources := ["places"]
  index := none
  condition := some (.single (.leaf ⟨"city", operator, some (.parameter "cities")⟩))
  parameters := [("cities", .array cities)]
  columns := []
  order := []
  limit := 0
  skip := 0

/-- Where all texts are whole, the candidates are the members, and those of arrays among them. -/
theorem compile_candidates_whole :
    ∃ search plan,
      SearchPlan.compile (cityQuery .notIn [.array [.string "San José", .null], .string "Ur"]) =
        .ok search ∧
      search.Tests (.terms "city" [.string "San José", .null, .string "Ur"]) ∧
      StorePlan.compile (cityQuery .notIn [.array [.string "San José", .null], .string "Ur"])
        ⟨[], ⟨"id", none⟩, []⟩ false = .ok plan ∧
      plan.statement.filter = some "NOT (#city IN (:cities_0, :cities_1, :cities_2))" ∧
      plan.statement.Tests ⟨"city", some "cities",
        .notWithin [.string "San José", .null, .string "Ur"]⟩ := by
  have asked : (⟨"city", .notIn, some (.parameter "cities")⟩ : Predicate) ∈
      (cityQuery .notIn [.array [.string "San José", .null], .string "Ur"]).predicates := by
    decide
  obtain ⟨_, compares, _, _⟩ := compile_candidates
    (show Predicate.operator ⟨"city", .notIn, some (.parameter "cities")⟩ = .isIn ∨
      Operator.notIn = .notIn from .inr rfl)
    (show Predicate.value [("cities", .array [.array [.string "San José", .null], .string "Ur"])]
      _ = .ok _ from rfl)
  have alike := compares (by decide)
  have filter : (StorePlan.compile
      (cityQuery .notIn [.array [.string "San José", .null], .string "Ur"])
      ⟨[], ⟨"id", none⟩, []⟩ false).map (fun plan => plan.statement.filter) =
        .ok (some "NOT (#city IN (:cities_0, :cities_1, :cities_2))") := by
    decide +kernel
  obtain ⟨plan, compiled, spelled⟩ := Fallible.map_eq_ok_iff.mp filter
  refine ⟨_, plan, rfl, ?_, compiled, spelled, ?_⟩
  · exact alike.searched _ _ rfl asked rfl
  · exact alike.stored _ _ _ _ rfl asked compiled

/-- Texts in an array are cut like a list in one text: none of these three is a candidate. -/
theorem compile_candidates_cut :
    candidates [("cities", .array [.string "Paris, France", .string " x ", .string ""])]
      ⟨"city", .isIn, some (.parameter "cities")⟩ =
        .ok [.string "Paris", .string "France", .string "x"] ∧
    ∃ search plan,
      SearchPlan.compile (cityQuery .isIn [.string "Paris, France", .string " x ", .string ""]) =
        .ok search ∧
      search.Tests (.terms "city" [.string "Paris", .string "France", .string "x"]) ∧
      StorePlan.compile (cityQuery .isIn [.string "Paris, France", .string " x ", .string ""])
        ⟨[], ⟨"id", none⟩, []⟩ false = .ok plan ∧
      plan.statement.Tests ⟨"city", some "cities",
        .within [.string "Paris", .string "France", .string "x"]⟩ := by
  have asked : (⟨"city", .isIn, some (.parameter "cities")⟩ : Predicate) ∈
      (cityQuery .isIn [.string "Paris, France", .string " x ", .string ""]).predicates := by
    decide
  have compares : ComparesWith
      [("cities", .array [.string "Paris, France", .string " x ", .string ""])]
      ⟨"city", .isIn, some (.parameter "cities")⟩
      [.string "Paris", .string "France", .string "x"] := by
    apply comparesWith
    decide +kernel
  have filter : (StorePlan.compile
      (cityQuery .isIn [.string "Paris, France", .string " x ", .string ""])
      ⟨[], ⟨"id", none⟩, []⟩ false).map (fun plan => plan.statement.filter) =
        .ok (some "#city IN (:cities_0, :cities_1, :cities_2)") := by
    decide +kernel
  obtain ⟨plan, compiled, _⟩ := Fallible.map_eq_ok_iff.mp filter
  refine ⟨by decide +kernel, _, plan, rfl, ?_, compiled, ?_⟩
  · exact compares.searched _ _ rfl asked rfl
  · exact compares.stored _ _ _ _ rfl asked compiled

end Predicate

end DocQuery
