import DocQuery.Proofs.Condition.Matching
import DocQuery.Proofs.Store.Clauses

/-!
# Patterns in a key-value store

The store compares texts, tests how they begin and tests what they contain, but it knows no
patterns. The main statement is that a pattern of one of these three shapes becomes a test that is
true of the texts which the pattern matches, and that no condition with any other pattern compiles.
-/

namespace DocQuery

/-- The comparisons of a field say what they say when the value of the field is this text. -/
structure Comparison.OfText (truth : Comparison → Bool) (subject : String) : Prop where
  eq : ∀ text, truth (.compare .eq (.string text)) = true ↔ subject = text
  beginsWith : ∀ text,
    truth (.beginsWith (.string text)) = true ↔ text.toList <+: subject.toList
  contains : ∀ text,
    truth (.contains (.string text)) = true ↔ text.toList <:+: subject.toList

/-- The comparisons of a field whose value is this text, for those that patterns are made into. -/
def Comparison.isTrueOf (subject : String) : Comparison → Bool
  | .compare .eq (.string text) => subject == text
  | .beginsWith (.string text) => text.toList.isPrefixOf subject.toList
  | .contains (.string text) => decide (text.toList <:+: subject.toList)
  | _ => false

theorem Comparison.ofText_isTrueOf (subject : String) :
    Comparison.OfText (Comparison.isTrueOf subject) subject := by
  constructor
  · intro text
    exact beq_iff_eq
  · intro text
    exact List.isPrefixOf_iff_prefix
  · intro text
    exact decide_eq_true_iff

namespace Pattern

/-- Whether a text is one that a pattern of this shape looks for. -/
def Finds : Pattern → String → Prop
  | .exact text, subject => subject = text
  | .startsWith text, subject => text.toList <+: subject.toList
  | .contains text, subject => text.toList <:+: subject.toList
  | .other pattern, subject => likes pattern subject = true

/-- A pattern matches the texts that its shape looks for. -/
theorem IsShape.likes_iff {pattern : String} {shape : Pattern} (isShape : IsShape pattern shape)
    (subject : String) : likes pattern subject = true ↔ shape.Finds subject := by
  cases isShape with
  | exact free =>
      exact likes_exact_iff free
  | startsWith _ free =>
      exact likes_startsWith_iff free
  | contains _ free =>
      exact likes_contains_iff free
  | other _ =>
      exact Iff.rfl

theorem likes_iff_finds (pattern subject : String) :
    likes pattern subject = true ↔ (classify pattern).Finds subject :=
  (classify_eq_iff.mp rfl).likes_iff subject

/-- The check of a pattern is true of the texts that the pattern matches. -/
theorem check_holds {pattern subject : String} {truth : Comparison → Bool} {check : Check Json}
    (ofText : Comparison.OfText truth subject)
    (found : Check.ofTest? (.like pattern) = some check) :
    check.holds truth = likes pattern subject := by
  have finds := likes_iff_finds pattern subject
  simp only [Check.ofTest?] at found
  rw [Bool.eq_iff_iff, finds]
  cases shape : classify pattern with
  | exact text =>
      rw [shape] at found
      rw [← Option.some.inj found]
      exact ofText.eq text
  | startsWith text =>
      rw [shape] at found
      rw [← Option.some.inj found]
      exact ofText.beginsWith text
  | contains text =>
      rw [shape] at found
      rw [← Option.some.inj found]
      exact ofText.contains text
  | other text =>
      rw [shape] at found
      cases found

end Pattern

namespace StorePlan

variable {parameters : Parameters} {predicate : Predicate} {pattern : String}

/-- The store refuses a predicate: it looks no key up by it, makes no test of it, and takes no
query that has it anywhere in its condition. -/
structure Refuses (parameters : Parameters) (predicate : Predicate) : Prop where
  unclaimed : ∀ key taken, claim? key parameters taken predicate = .ok none
  untested : predicate.storeTest parameters = .error (predicate.unsupported .patternShape)
  uncompiled : ∀ (query : Query) (schema : Schema) (consistentRead : Bool),
    query.parameters = parameters → predicate ∈ query.predicates →
      ¬ ∃ plan, compile query schema consistentRead = .ok plan

/-- The store tests a predicate by the texts that match a pattern, and every statement for a query
that has the predicate in its condition makes this test. -/
structure TestsPattern (parameters : Parameters) (predicate : Predicate) (pattern : String)
    (test : StoreTest) : Prop where
  lowered : predicate.storeTest parameters = .ok test
  field : test.field = predicate.field
  holds : ∀ (truth : Assignment) (subject : String),
    Comparison.OfText (truth predicate.field) subject →
      test.holds truth = Pattern.likes pattern subject
  stated : ∀ (query : Query) (schema : Schema) (consistentRead : Bool) (plan : StorePlan),
    query.parameters = parameters → predicate ∈ query.predicates →
      compile query schema consistentRead = .ok plan → plan.statement.Tests test

theorem refuses_other (operator : predicate.operator = .like)
    (resolved : predicate.pattern parameters = .ok pattern)
    (other : Pattern.classify pattern = .other pattern) : Refuses parameters predicate := by
  have tested : predicate.test parameters = .ok (.like pattern) :=
    Predicate.test_eq_like_iff.mpr ⟨operator, resolved⟩
  have untested : predicate.storeTest parameters =
      .error (predicate.unsupported .patternShape) := by
    simp [Predicate.storeTest, tested, Check.ofTest?, other, bind, Except.bind]
  constructor
  · intro key taken
    have notEligible : isEligible key parameters predicate = .ok false := by
      simp [isEligible, operator, resolved, isRange, other, Except.map]
    rw [claim?, notEligible]
    rfl
  · exact untested
  · intro query schema consistentRead sameParameters member compiles
    have lowers := (exists_storeTest_of_compile compiles).2 predicate member
    obtain ⟨test, lowered⟩ := lowers
    rw [sameParameters, untested] at lowered
    cases lowered

theorem exists_testsPattern (operator : predicate.operator = .like)
    (resolved : predicate.pattern parameters = .ok pattern)
    (basic : ∀ other, Pattern.classify pattern ≠ .other other) :
    ∃ test, TestsPattern parameters predicate pattern test := by
  have tested : predicate.test parameters = .ok (.like pattern) :=
    Predicate.test_eq_like_iff.mpr ⟨operator, resolved⟩
  have basicPattern : predicate.HasBasicPattern parameters := by
    intro asked _ askedResolved
    have same : pattern = asked := Except.ok.inj (resolved.symm.trans askedResolved)
    rw [← same]
    exact Pattern.isBasic_iff.mpr basic
  obtain ⟨test, lowered⟩ := Predicate.exists_storeTest_iff.mpr ⟨⟨_, tested⟩, basicPattern⟩
  obtain ⟨asked, askedTested, found, sameField⟩ := Predicate.storeTest_ok lowered
  have isLike : .like pattern = asked := Except.ok.inj (tested.symm.trans askedTested)
  rw [← isLike] at found
  refine ⟨test, lowered, sameField, ?_, ?_⟩
  · intro truth subject ofText
    rw [StoreTest.holds, sameField]
    exact Pattern.check_holds ofText found
  · intro query schema consistentRead plan sameParameters member compiled
    obtain ⟨stated, statedLowered, tests⟩ := exists_tests_of_compile compiled member
    rw [sameParameters] at statedLowered
    rwa [Except.ok.inj (lowered.symm.trans statedLowered)]

/-- A pattern is classified by its shape, and the shape looks for the texts that the pattern
matches. A predicate with a pattern of a shape that the store has a test for is lowered to a test
of just these texts; a predicate with any other pattern is refused. -/
theorem lowers_pattern (pattern : String) :
    (∀ shape, Pattern.classify pattern = shape ↔ Pattern.IsShape pattern shape) ∧
    (∀ subject, Pattern.likes pattern subject = true ↔
      (Pattern.classify pattern).Finds subject) ∧
    ∀ (parameters : Parameters) (predicate : Predicate),
      predicate.operator = .like → predicate.pattern parameters = .ok pattern →
        match Pattern.classify pattern with
        | .other _ => Refuses parameters predicate
        | _ => ∃ test, TestsPattern parameters predicate pattern test := by
  refine ⟨fun shape => Pattern.classify_eq_iff, Pattern.likes_iff_finds pattern, ?_⟩
  intro parameters predicate operator resolved
  cases shape : Pattern.classify pattern with
  | other other =>
      have same : other = pattern := Pattern.eq_of_classify_other shape
      exact refuses_other operator resolved (same ▸ shape)
  | _ =>
      exact exists_testsPattern operator resolved (by simp [shape])

/-- A pattern with a wildcard on both sides of a text becomes a test of the field `name` that is
true of `café`; one with two wildcards behind a text is refused. -/
theorem lowers_pattern_name :
    (∃ test truth,
      TestsPattern [] ⟨"name", .like, some (.literal (.string "%fé%"))⟩ "%fé%" test ∧
      Comparison.OfText (truth "name") "café" ∧ test.holds truth = true) ∧
    Refuses [("start", .string "é%%")] ⟨"name", .like, some (.parameter "start")⟩ := by
  constructor
  · have shape : Pattern.classify "%fé%" = .contains "fé" := by
      decide
    obtain ⟨_, finds, lowers⟩ := lowers_pattern "%fé%"
    have tested := lowers [] ⟨"name", .like, some (.literal (.string "%fé%"))⟩ rfl rfl
    rw [shape] at tested
    obtain ⟨test, tests⟩ := tested
    have ofText := Comparison.ofText_isTrueOf "café"
    refine ⟨test, fun _ => Comparison.isTrueOf "café", tests, ofText, ?_⟩
    rw [tests.holds _ "café" ofText, finds, shape]
    exact ⟨"ca".toList, [], by decide⟩
  · have shape : Pattern.classify "é%%" = .other "é%%" := by
      decide
    have refused := (lowers_pattern "é%%").2.2 [("start", .string "é%%")]
      ⟨"name", .like, some (.parameter "start")⟩ rfl rfl
    rwa [shape] at refused

end StorePlan

end DocQuery
