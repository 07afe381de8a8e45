import DocQuery.Proofs.Acceptance
import DocQuery.Proofs.Condition.Matching
import DocQuery.Proofs.Search.Meaning

/-!
# Patterns in a search engine

A pattern without `%` becomes a test for the text itself, and any other one becomes wildcards in
which `*` stands where `%` stood. The engine has a meaning for `?` too, and gives `*` its meaning
wherever it stands. So the test is true of the texts that the pattern matches exactly if neither
character is in a pattern with a `%`.
-/

namespace DocQuery

/-- Whether a test is true of a field whose value is this text, for the tests that patterns are
made into. -/
def SearchLeaf.accepts : SearchLeaf → String → Bool
  | .term _ (.string text), subject => subject == text
  | .wildcard _ wildcards, subject => Pattern.globs wildcards subject
  | _, _ => false

namespace Pattern

variable {pattern : String}

/-- The test of a field that a pattern is made into. -/
def searchLeaf (field pattern : String) : SearchLeaf :=
  if '%' ∈ pattern.toList then .wildcard field (wildcards pattern)
  else .term field (.string pattern)

theorem classify_eq_exact_iff {text : String} :
    classify pattern = .exact text ↔ pattern = text ∧ '%' ∉ pattern.toList := by
  rw [classify_eq_iff]
  constructor
  · intro isShape
    cases isShape with
    | exact free =>
        exact ⟨rfl, free⟩
  · rintro ⟨rfl, free⟩
    exact .exact free

/-- The test for a predicate with a pattern is that of the pattern. -/
theorem ofTest_like (field pattern : String) :
    SearchLeaf.ofTest field (.like pattern) = searchLeaf field pattern := by
  by_cases wild : '%' ∈ pattern.toList
  · have notExact : ∀ text, classify pattern ≠ .exact text := by
      intro text isExact
      exact (classify_eq_exact_iff.mp isExact).2 wild
    rw [searchLeaf, if_pos wild, SearchLeaf.ofTest]
    split
    · next text isExact =>
        exact absurd isExact (notExact text)
    · rfl
  · have isExact : classify pattern = .exact pattern :=
      classify_eq_exact_iff.mpr ⟨rfl, wild⟩
    rw [searchLeaf, if_neg wild, SearchLeaf.ofTest, isExact]

/-- The test of a pattern is true of the texts that the pattern matches, exactly if the pattern has
no `%` or none of the characters that mean something in wildcards. -/
theorem searchLeaf_accepts_iff (field pattern : String) :
    (∀ subject, (searchLeaf field pattern).accepts subject = likes pattern subject) ↔
      '%' ∉ pattern.toList ∨ '*' ∉ pattern.toList ∧ '?' ∉ pattern.toList := by
  by_cases wild : '%' ∈ pattern.toList
  · have leaf : searchLeaf field pattern = .wildcard field (wildcards pattern) := if_pos wild
    rw [leaf]
    apply (globs_wildcards_iff pattern).trans
    simp [wild]
  · have leaf : searchLeaf field pattern = .term field (.string pattern) := if_neg wild
    have alike (subject : String) :
        (SearchLeaf.term field (.string pattern)).accepts subject = likes pattern subject := by
      rw [Bool.eq_iff_iff, likes_exact_iff wild]
      exact beq_iff_eq
    rw [leaf]
    simp [wild, alike]

end Pattern

namespace SearchPlan

variable {parameters : Parameters} {predicate : Predicate} {pattern : String}

/-- A predicate with a pattern is true exactly if the test of the pattern is, and every search for a
query that has the predicate in its condition makes this test. The test is true of the texts that
the pattern matches exactly if the pattern has no `%`, or neither `*` nor `?`. -/
theorem compile_pattern (operator : predicate.operator = .like)
    (resolved : predicate.pattern parameters = .ok pattern) :
    (∀ truth, predicate.searchTruth? truth parameters =
      some (truth (Pattern.searchLeaf predicate.field pattern))) ∧
    (∀ (query : Query) (search : Search), query.parameters = parameters →
      predicate ∈ query.predicates → compile query = .ok search →
        search.Tests (Pattern.searchLeaf predicate.field pattern)) ∧
    ((∀ subject, (Pattern.searchLeaf predicate.field pattern).accepts subject =
        Pattern.likes pattern subject) ↔
      '%' ∉ pattern.toList ∨ '*' ∉ pattern.toList ∧ '?' ∉ pattern.toList) := by
  have tested : predicate.test parameters = .ok (.like pattern) :=
    Predicate.test_eq_like_iff.mpr ⟨operator, resolved⟩
  have leaf : predicate.searchLeaf? parameters =
      some (Pattern.searchLeaf predicate.field pattern) := by
    rw [Predicate.searchLeaf?, tested, ← Pattern.ofTest_like]
  refine ⟨?_, ?_, Pattern.searchLeaf_accepts_iff predicate.field pattern⟩
  · intro truth
    rw [Predicate.searchTruth?, tested, ← Pattern.ofTest_like]
    rfl
  · intro query search sameParameters member compiled
    obtain ⟨made, madeFound, tests⟩ := exists_leaf_of_compile compiled member
    rw [sameParameters, leaf] at madeFound
    rwa [Option.some.inj madeFound]

/-- A query for the names with a pattern. -/
def likeQuery (pattern : String) : Query where
  sources := ["people"]
  index := none
  condition := some (.single (.leaf ⟨"name", .like, some (.literal (.string pattern))⟩))
  parameters := []
  columns := []
  order := []
  limit := 0
  skip := 0

/-- The pattern `50%_%` has only characters that wildcards take as they are. -/
theorem compile_pattern_plain :
    ∃ search, compile (likeQuery "50%_%") = .ok search ∧
      search.Tests (.wildcard "name" "50*_*") ∧
      ∀ subject, (SearchLeaf.wildcard "name" "50*_*").accepts subject =
        Pattern.likes "50%_%" subject := by
  obtain ⟨search, compiled⟩ : ∃ search, compile (likeQuery "50%_%") = .ok search := ⟨_, rfl⟩
  obtain ⟨_, tests, accepts⟩ := compile_pattern
    (show Predicate.operator ⟨"name", .like, some (.literal (.string "50%_%"))⟩ = .like from rfl)
    (show Predicate.pattern [] _ = .ok "50%_%" from rfl)
  have tested := tests (likeQuery "50%_%") search rfl (by decide) compiled
  exact ⟨search, compiled, tested, accepts.mpr (by decide)⟩

/-- A `*` of a pattern is searched for as any text: `a*%` matches no `ab`, but its test does. -/
theorem compile_pattern_star :
    ∃ search, compile (likeQuery "a*%") = .ok search ∧
      search.Tests (.wildcard "name" "a**") ∧
      (SearchLeaf.wildcard "name" "a**").accepts "ab" = true ∧
      Pattern.likes "a*%" "ab" = false := by
  obtain ⟨search, compiled⟩ : ∃ search, compile (likeQuery "a*%") = .ok search := ⟨_, rfl⟩
  obtain ⟨leaf, found, tests⟩ := exists_leaf_of_compile compiled
    (show (⟨"name", .like, some (.literal (.string "a*%"))⟩ : Predicate) ∈ _ by decide)
  have isWildcard : leaf = .wildcard "name" "a**" := Option.some.inj (found.symm.trans rfl)
  exact ⟨search, compiled, isWildcard ▸ tests, by decide, by decide⟩

end SearchPlan

end DocQuery
