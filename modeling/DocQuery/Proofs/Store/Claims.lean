import DocQuery.Proofs.Store.Plan

/-!
# The parts that claim key attributes

A part that claims a key attribute is one test of it, of a kind that the store can look up, and
no two parts claim the same attribute. This is kept as an invariant while a condition is split:
what was claimed before counts as taken for a predicate, for the later members of a group and
for the runs behind.
-/

namespace DocQuery.StorePlan

def PartitionTest (key : Key) (test : StoreTest) : Prop :=
  test.field = key.partition ∧ ∃ value, test.check = .compare .eq value

/-- A test of the sort key by its order: any comparison but `≠`, or the beginning of a text. -/
def SortTest (key : Key) (test : StoreTest) : Prop :=
  key.sort = some test.field ∧ test.field ≠ key.partition ∧
    ((∃ comparator value, comparator ≠ .ne ∧ test.check = .compare comparator value) ∨
      ∃ value, test.check = .beginsWith value)

def KeyTest (key : Key) (test : StoreTest) : Prop :=
  PartitionTest key test ∨ SortTest key test

/-- The part is a test of a field that the store can look up. -/
def Part.LooksUp (key : Key) (field : String) (part : Part) : Prop :=
  ∃ test : StoreTest, part.formula = Formula.leaf test ∧ test.field = field ∧ KeyTest key test

/-- What the parts claim is looked up by them, and is neither claimed twice nor taken. -/
structure Claims (key : Key) (taken : List String) (parts : List Part) : Prop where
  looksUp : ∀ part ∈ parts, ∀ field, part.claim = some field → part.LooksUp key field
  fresh : ∀ field ∈ parts.filterMap Part.claim, field ∉ taken
  distinct : (parts.filterMap Part.claim).Nodup

variable {key : Key} {parameters : Parameters} {taken : List String}

theorem check_of_comparator {predicate : Predicate} {comparator : Comparator} {asked : Test}
    {check : Check Json} (operator : predicate.operator = .compare comparator)
    (tested : predicate.test parameters = .ok asked) (found : Check.ofTest? asked = some check) :
    ∃ value, check = .compare comparator value := by
  simp only [Predicate.test, operator] at tested
  obtain ⟨value, _, rfl⟩ := Fallible.map_eq_ok_iff.mp tested
  exact ⟨value, (Option.some.inj found).symm⟩

/-- A pattern that can be looked up is lowered to an equality or to the beginning of a text. -/
theorem check_of_range {predicate : Predicate} {pattern : String} {asked : Test}
    {check : Check Json} (operator : predicate.operator = .like)
    (resolved : predicate.pattern parameters = .ok pattern) (range : isRange pattern = true)
    (tested : predicate.test parameters = .ok asked) (found : Check.ofTest? asked = some check) :
    (∃ value, check = .compare .eq value) ∨ ∃ value, check = .beginsWith value := by
  simp only [Predicate.test, operator, resolved, Except.map, Except.ok.injEq] at tested
  subst tested
  simp only [Check.ofTest?] at found
  unfold isRange at range
  split at range
  · next text whole =>
      rw [whole] at found
      exact .inl ⟨.string text, (Option.some.inj found).symm⟩
  · next text beginning =>
      rw [beginning] at found
      exact .inr ⟨.string text, (Option.some.inj found).symm⟩
  · cases range

theorem keyTest_of_isEligible {predicate : Predicate} {test : StoreTest}
    (eligible : isEligible key parameters predicate = .ok true)
    (lowered : predicate.storeTest parameters = .ok test) :
    test.field = predicate.field ∧ KeyTest key test := by
  obtain ⟨asked, tested, found, sameField⟩ := Predicate.storeTest_ok lowered
  refine ⟨sameField, ?_⟩
  unfold isEligible at eligible
  split at eligible
  · next onPartition =>
      simp only [Except.ok.injEq, beq_iff_eq] at eligible
      have check := check_of_comparator eligible tested found
      exact .inl ⟨sameField.trans onPartition, check⟩
  · next elsewhere =>
      split at eligible
      · next onSort =>
          rw [← sameField] at onSort elsewhere
          refine .inr ⟨onSort, elsewhere, ?_⟩
          split at eligible
          · next comparator operator =>
              simp only [Except.ok.injEq, bne_iff_ne] at eligible
              obtain ⟨value, check⟩ := check_of_comparator operator tested found
              exact .inl ⟨comparator, value, eligible, check⟩
          · next operator =>
              obtain ⟨pattern, resolved, range⟩ := Fallible.map_eq_ok_iff.mp eligible
              rcases check_of_range operator resolved range tested found with equality | beginning
              · obtain ⟨value, check⟩ := equality
                exact .inl ⟨.eq, value, by decide, check⟩
              · exact .inr beginning
          · cases eligible
      · cases eligible

theorem claim?_eq_some {predicate : Predicate} {field : String}
    (claimed : claim? key parameters taken predicate = .ok (some field)) :
    field = predicate.field ∧ field ∉ taken ∧
      isEligible key parameters predicate = .ok true := by
  simp only [claim?, Fallible.bind_eq_ok_iff, Fallible.pure_eq_ok_iff] at claimed
  obtain ⟨eligible, found, claimed⟩ := claimed
  split at claimed
  · next both =>
      obtain rfl := Option.some.inj claimed
      simp only [Bool.and_eq_true, Bool.not_eq_true', List.contains_eq_mem, decide_eq_false_iff_not]
        at both
      exact ⟨rfl, both.2, by rw [found, both.1]⟩
  · cases claimed

/-- A group claims every field once, and none that is taken. -/
theorem claimAll?_eq_some {predicates : List Predicate} {claims : List (String × Predicate)}
    (claimed : claimAll? key parameters taken predicates = .ok (some claims)) :
    (∀ claim ∈ claims, claim.1 = claim.2.field ∧
      isEligible key parameters claim.2 = .ok true) ∧
    (∀ field ∈ claims.map Prod.fst, field ∉ taken) ∧ (claims.map Prod.fst).Nodup := by
  induction predicates generalizing taken claims with
  | nil =>
      simp only [claimAll?, Except.ok.injEq, Option.some.injEq] at claimed
      subst claimed
      simp
  | cons predicate rest inductionHypothesis =>
      simp only [claimAll?, Fallible.bind_eq_ok_iff] at claimed
      obtain ⟨claim, first, claimed⟩ := claimed
      cases claim with
      | none =>
          simp [Fallible.pure_eq_ok_iff] at claimed
      | some field =>
          simp only [Fallible.bind_eq_ok_iff, Fallible.pure_eq_ok_iff, Option.map_eq_some_iff]
            at claimed
          obtain ⟨others, restClaimed, otherClaims, rfl, rfl⟩ := claimed
          obtain ⟨sameField, free, eligible⟩ := claim?_eq_some first
          obtain ⟨restEligible, restFresh, restDistinct⟩ := inductionHypothesis restClaimed
          refine ⟨?_, ?_, ?_⟩
          · rintro claim (_ | ⟨_, later⟩)
            · exact ⟨sameField, eligible⟩
            · exact restEligible claim later
          -- the rest was claimed with this field counted as taken
          · rintro other (_ | ⟨_, later⟩)
            · exact free
            · exact fun isTaken => restFresh other later (List.mem_cons_of_mem field isTaken)
          · exact List.nodup_cons.mpr
              ⟨fun later => restFresh field later List.mem_cons_self, restDistinct⟩

theorem claimedParts_ok {claims : List (String × Predicate)} {parts : List Part}
    (lowered : claimedParts parameters claims = .ok parts) :
    List.Forall₂ (fun claim part => part.claim = some claim.1 ∧
      ∃ test, claim.2.storeTest parameters = .ok test ∧ part.formula = Formula.leaf test)
      claims parts := by
  induction claims generalizing parts with
  | nil =>
      cases lowered
      exact .nil
  | cons claim rest inductionHypothesis =>
      simp only [claimedParts, Fallible.bind_eq_ok_iff, Fallible.pure_eq_ok_iff] at lowered
      obtain ⟨test, predicateLowered, others, restLowered, rfl⟩ := lowered
      exact .cons ⟨rfl, test, predicateLowered, rfl⟩ (inductionHypothesis restLowered)

theorem claimedParts_fields {claims : List (String × Predicate)} {parts : List Part}
    (lowered : claimedParts parameters claims = .ok parts) :
    parts.filterMap Part.claim = claims.map Prod.fst := by
  induction claims generalizing parts with
  | nil =>
      cases lowered
      rfl
  | cons claim rest inductionHypothesis =>
      simp only [claimedParts, Fallible.bind_eq_ok_iff, Fallible.pure_eq_ok_iff] at lowered
      obtain ⟨test, _, others, restLowered, rfl⟩ := lowered
      simp [inductionHypothesis restLowered]

namespace Claims

theorem of_none {parts : List Part} (unclaimed : ∀ part ∈ parts, part.claim = none) :
    Claims key taken parts := by
  have nothing : parts.filterMap Part.claim = [] :=
    List.filterMap_eq_nil_iff.mpr unclaimed
  refine ⟨?_, by simp [nothing], by simp [nothing]⟩
  intro part member field claimed
  rw [unclaimed part member] at claimed
  cases claimed

/-- Parts that were split with what earlier ones claim counted as taken. -/
theorem append {first others : List Part} (firstClaims : Claims key taken first)
    (otherClaims : Claims key (taken ++ first.filterMap Part.claim) others) :
    Claims key taken (first ++ others) := by
  refine ⟨?_, ?_, ?_⟩
  · intro part member
    rcases List.mem_append.mp member with earlier | later
    · exact firstClaims.looksUp part earlier
    · exact otherClaims.looksUp part later
  · intro field member
    rw [List.filterMap_append] at member
    rcases List.mem_append.mp member with earlier | later
    · exact firstClaims.fresh field earlier
    · exact fun isTaken => otherClaims.fresh field later (List.mem_append_left _ isTaken)
  · rw [List.filterMap_append]
    refine List.nodup_append.mpr ⟨firstClaims.distinct, otherClaims.distinct, ?_⟩
    rintro field earlier _ later rfl
    exact otherClaims.fresh field later (List.mem_append_right _ earlier)

end Claims

theorem wholePart_claims {formula : Condition} {parts : List Part}
    (lowered : wholePart parameters formula = .ok parts) : Claims key taken parts := by
  simp only [wholePart, Fallible.bind_eq_ok_iff, Fallible.pure_eq_ok_iff] at lowered
  obtain ⟨tests, _, rfl⟩ := lowered
  exact Claims.of_none (by simp)

theorem claimedParts_claims {predicates : List Predicate} {claims : List (String × Predicate)}
    {parts : List Part} (claimed : claimAll? key parameters taken predicates = .ok (some claims))
    (lowered : claimedParts parameters claims = .ok parts) : Claims key taken parts := by
  obtain ⟨eligible, fresh, distinct⟩ := claimAll?_eq_some claimed
  have related := claimedParts_ok lowered
  have fields := claimedParts_fields lowered
  refine ⟨?_, by rwa [fields], by rwa [fields]⟩
  intro part member field claim
  obtain ⟨source, sourceMember, sourceClaim, test, predicateLowered, formula⟩ :=
    Related.exists_of_mem related.flip member
  obtain ⟨sameField, sourceEligible⟩ := eligible source sourceMember
  obtain ⟨testField, keyTest⟩ := keyTest_of_isEligible sourceEligible predicateLowered
  obtain rfl : source.1 = field := Option.some.inj (sourceClaim.symm.trans claim)
  exact ⟨test, formula, testField.trans sameField.symm, keyTest⟩

theorem leaf_claims {predicate : Predicate} {claim : Option String} {test : StoreTest}
    (claimed : claim? key parameters taken predicate = .ok claim)
    (lowered : predicate.storeTest parameters = .ok test) :
    Claims key taken [⟨claim, Formula.leaf test⟩] := by
  cases claim with
  | none =>
      exact Claims.of_none (by simp)
  | some field =>
      obtain ⟨rfl, free, eligible⟩ := claim?_eq_some claimed
      obtain ⟨sameField, keyTest⟩ := keyTest_of_isEligible eligible lowered
      refine ⟨?_, by simpa using free, by simp⟩
      simp only [List.mem_singleton, forall_eq, Option.some.injEq]
      rintro _ rfl
      exact ⟨test, rfl, sameField, keyTest⟩

theorem runParts_claims {run : List (Tree Predicate)} {parts : List Part}
    (split : runParts key parameters taken run = .ok parts) : Claims key taken parts := by
  cases runParts_ok split with
  | empty =>
      exact Claims.of_none (by simp)
  | leaf claimed lowered =>
      exact leaf_claims claimed lowered
  | claimed _ claimed lowered =>
      exact claimedParts_claims claimed lowered
  | group lowered | several lowered =>
      exact wholePart_claims lowered

theorem parts_claims {runs : List (List (Tree Predicate))} {allParts : List Part}
    (split : parts key parameters taken runs = .ok allParts) : Claims key taken allParts := by
  induction runs generalizing taken allParts with
  | nil =>
      cases split
      exact Claims.of_none (by simp)
  | cons run rest inductionHypothesis =>
      simp only [parts, Fallible.bind_eq_ok_iff, Fallible.pure_eq_ok_iff] at split
      obtain ⟨first, runSplit, others, restSplit, rfl⟩ := split
      exact (runParts_claims runSplit).append (inductionHypothesis restSplit)

/-- An equality on the partition key that stands alone claims it, unless it was claimed
before. -/
theorem partition_claimed {predicate : Predicate} {runs : List (List (Tree Predicate))}
    {allParts : List Part} (alone : [.leaf predicate] ∈ runs)
    (onPartition : predicate.field = key.partition)
    (equality : predicate.operator = .compare .eq)
    (split : parts key parameters taken runs = .ok allParts) :
    key.partition ∈ taken ++ allParts.filterMap Part.claim := by
  induction runs generalizing taken allParts with
  | nil =>
      cases alone
  | cons run rest inductionHypothesis =>
      simp only [parts, Fallible.bind_eq_ok_iff, Fallible.pure_eq_ok_iff] at split
      obtain ⟨first, runSplit, others, restSplit, rfl⟩ := split
      rw [List.filterMap_append, ← List.append_assoc]
      rcases List.mem_cons.mp alone with rfl | later
      · cases runParts_ok runSplit with
        | @leaf _ claim _ claimed _ =>
            have eligible : isEligible key parameters predicate = .ok true := by
              simp [isEligible, onPartition, equality]
            simp only [claim?, eligible, Fallible.bind_eq_ok_iff, Fallible.pure_eq_ok_iff]
              at claimed
            obtain ⟨_, ⟨⟩, rfl⟩ := claimed
            refine List.mem_append_left _ ?_
            by_cases isTaken : key.partition ∈ taken
            · exact List.mem_append_left _ isTaken
            · simp [onPartition, isTaken]
      · exact inductionHypothesis later restSplit

end DocQuery.StorePlan
