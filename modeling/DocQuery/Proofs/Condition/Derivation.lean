import DocQuery.Condition.Token
import DocQuery.Proofs.Condition.Formula

/-!
# Derivations of conditions

The tokens of a condition follow the grammar

* `chain := term ((AND | OR) term)*`
* `term := ( chain ) | predicate`
* `predicate := FIELD comparison`
* `comparison := (= | != | < | <= | > | >= | LIKE) value | (IN | NOT IN) candidates`
  `| IS NULL | IS NOT NULL`
* `candidates := value | ( value (, value)* )`
* `value := PLACEHOLDER | NUMBER | STRING`

There is a type of derivations for each of these rules, with a constructor for each alternative;
those of chains and terms are formulas over the derivations of predicates. A derivation spells
tokens and denotes what is compared. No two derivations spell the same tokens, because of a term
it is known from the tokens where it ends. The sign `<>` is no alternative of its own, since it
is the same token as `!=`.
-/

namespace DocQuery

inductive ValueDerivation where
  | placeholder (name : String)
  | number (spelling : String) (value : Number)
  | string (text : String)

inductive CandidatesDerivation where
  | single (value : ValueDerivation)
  | list (first : ValueDerivation) (others : List ValueDerivation)

inductive ComparisonDerivation where
  | compare (comparator : Comparator) (value : ValueDerivation)
  | like (value : ValueDerivation)
  | isIn (candidates : CandidatesDerivation)
  | notIn (candidates : CandidatesDerivation)
  | isNull
  | isNotNull

structure PredicateDerivation where
  field : String
  comparison : ComparisonDerivation

abbrev ConditionDerivation := Formula PredicateDerivation

namespace ValueDerivation

def token : ValueDerivation → Token
  | .placeholder name => .placeholder name
  | .number spelling value => .number spelling value
  | .string text => .string text

def operand : ValueDerivation → Operand
  | .placeholder name => .parameter name
  | .number _ value => .literal (.number value)
  | .string text => .literal (.string text)

theorem token_injective : Function.Injective token := by
  intro first second same
  cases first <;> cases second <;> simp_all [token]

theorem operand?_eq_some_iff {token : Token} {operand : Operand} :
    token.operand? = some operand ↔
      ∃ value : ValueDerivation, value.token = token ∧ value.operand = operand := by
  constructor
  · intro found
    unfold Token.operand? at found
    split at found
    · next name =>
        exact ⟨.placeholder name, rfl, Option.some.inj found⟩
    · next text =>
        exact ⟨.string text, rfl, Option.some.inj found⟩
    · next spelling value =>
        exact ⟨.number spelling value, rfl, Option.some.inj found⟩
    · cases found
  · rintro ⟨value, rfl, rfl⟩
    cases value <;> rfl

@[simp]
theorem operand?_token (value : ValueDerivation) : value.token.operand? = some value.operand :=
  operand?_eq_some_iff.mpr ⟨value, rfl, rfl⟩

/-- Values behind the first one of a list, each with a comma in front of it. -/
def memberTokens (values : List ValueDerivation) : List Token :=
  values.flatMap fun value => [.comma, value.token]

@[simp]
theorem memberTokens_nil : memberTokens [] = [] :=
  rfl

@[simp]
theorem memberTokens_cons (value : ValueDerivation) (rest : List ValueDerivation) :
    memberTokens (value :: rest) = .comma :: value.token :: memberTokens rest :=
  rfl

theorem memberTokens_unique {first second : List ValueDerivation} {rest others : List Token}
    (same : memberTokens first ++ .closeParen :: rest =
      memberTokens second ++ .closeParen :: others) :
    first = second ∧ rest = others := by
  induction first generalizing second with
  | nil =>
      cases second with
      | nil =>
          simpa using same
      | cons value later =>
          simp at same
  | cons value later inductionHypothesis =>
      cases second with
      | nil =>
          simp at same
      | cons otherValue otherLater =>
          simp only [memberTokens_cons, List.cons_append, List.cons.injEq, true_and] at same
          obtain ⟨sameToken, sameLater⟩ := same
          obtain ⟨rfl, rfl⟩ := inductionHypothesis sameLater
          exact ⟨by rw [token_injective sameToken], rfl⟩

end ValueDerivation

namespace CandidatesDerivation

def tokens : CandidatesDerivation → List Token
  | .single value => [value.token]
  | .list first others =>
      .openParen :: first.token :: ValueDerivation.memberTokens others ++ [.closeParen]

def operand : CandidatesDerivation → Operand
  | .single value => value.operand
  | .list first others => .list (first.operand :: others.map ValueDerivation.operand)

theorem tokens_unique {first second : CandidatesDerivation} {rest others : List Token}
    (same : first.tokens ++ rest = second.tokens ++ others) :
    first = second ∧ rest = others := by
  cases first with
  | single value =>
      cases second with
      | single otherValue =>
          obtain ⟨sameToken, sameRest⟩ := List.cons.inj same
          exact ⟨by rw [ValueDerivation.token_injective sameToken], sameRest⟩
      | list otherValue otherMembers =>
          cases value <;> simp [tokens, ValueDerivation.token] at same
  | list value members =>
      cases second with
      | single otherValue =>
          cases otherValue <;> simp [tokens, ValueDerivation.token] at same
      | list otherValue otherMembers =>
          simp only [tokens, List.cons_append, List.append_assoc, List.nil_append,
            List.cons.injEq, true_and] at same
          obtain ⟨sameToken, sameMembers⟩ := same
          obtain ⟨rfl, rfl⟩ := ValueDerivation.memberTokens_unique sameMembers
          exact ⟨by rw [ValueDerivation.token_injective sameToken], rfl⟩

end CandidatesDerivation

namespace ComparisonDerivation

def tokens : ComparisonDerivation → List Token
  | .compare comparator value => [.comparator comparator, value.token]
  | .like value => [.like, value.token]
  | .isIn candidates => .isIn :: candidates.tokens
  | .notIn candidates => .not :: .isIn :: candidates.tokens
  | .isNull => [.is, .null]
  | .isNotNull => [.is, .not, .null]

def operator : ComparisonDerivation → Operator
  | .compare comparator _ => .compare comparator
  | .like _ => .like
  | .isIn _ => .isIn
  | .notIn _ => .notIn
  | .isNull => .isNull
  | .isNotNull => .isNotNull

def operand? : ComparisonDerivation → Option Operand
  | .compare _ value | .like value => some value.operand
  | .isIn candidates | .notIn candidates => some candidates.operand
  | .isNull | .isNotNull => none

theorem tokens_unique {first second : ComparisonDerivation} {rest others : List Token}
    (same : first.tokens ++ rest = second.tokens ++ others) :
    first = second ∧ rest = others := by
  cases first <;> cases second <;>
    simp only [tokens, List.cons_append, List.nil_append, List.cons.injEq, Token.comparator.injEq,
      reduceCtorEq, true_and, false_and, and_false] at same ⊢
  case compare.compare =>
    obtain ⟨rfl, sameToken, sameRest⟩ := same
    exact ⟨by rw [ValueDerivation.token_injective sameToken], sameRest⟩
  case like.like =>
    obtain ⟨sameToken, sameRest⟩ := same
    exact ⟨by rw [ValueDerivation.token_injective sameToken], sameRest⟩
  case isIn.isIn | notIn.notIn =>
    obtain ⟨rfl, sameRest⟩ := CandidatesDerivation.tokens_unique same
    exact ⟨rfl, sameRest⟩
  case isNull.isNull | isNotNull.isNotNull =>
    exact same

end ComparisonDerivation

namespace PredicateDerivation

def tokens (derivation : PredicateDerivation) : List Token :=
  .identifier derivation.field :: derivation.comparison.tokens

def predicate (derivation : PredicateDerivation) : Predicate where
  field := derivation.field
  operator := derivation.comparison.operator
  operand := derivation.comparison.operand?

theorem tokens_unique {first second : PredicateDerivation} {rest others : List Token}
    (same : first.tokens ++ rest = second.tokens ++ others) :
    first = second ∧ rest = others := by
  obtain ⟨field, comparison⟩ := first
  obtain ⟨otherField, otherComparison⟩ := second
  obtain ⟨sameField, sameComparison⟩ := List.cons.inj same
  obtain ⟨rfl, sameRest⟩ := ComparisonDerivation.tokens_unique sameComparison
  obtain rfl := Token.identifier.inj sameField
  exact ⟨rfl, sameRest⟩

end PredicateDerivation

namespace ConditionDerivation

/-- The tokens of a chain, given those of its terms. -/
def joinTokens : Chain (List Token) → List Token
  | .single tokens => tokens
  | .link tokens join rest => tokens ++ .join join :: joinTokens rest

def groupTokens (terms : Chain (List Token)) : List Token :=
  .openParen :: joinTokens terms ++ [.closeParen]

def termTokens (term : Tree PredicateDerivation) : List Token :=
  term.fold PredicateDerivation.tokens groupTokens

def tokens (derivation : ConditionDerivation) : List Token :=
  joinTokens (derivation.map termTokens)

/-- What a term denotes: the same groups and joins over the predicates denoted. -/
def denoted (term : Tree PredicateDerivation) : Tree Predicate :=
  term.fold (fun derivation => .leaf derivation.predicate) .group

def condition (derivation : ConditionDerivation) : Condition :=
  derivation.map denoted

@[simp]
theorem termTokens_leaf (derivation : PredicateDerivation) :
    termTokens (.leaf derivation) = derivation.tokens := by
  simp [termTokens]

@[simp]
theorem termTokens_group (inner : ConditionDerivation) :
    termTokens (.group inner) = .openParen :: (tokens inner ++ [.closeParen]) := by
  simp only [termTokens, Tree.fold_group, groupTokens, tokens, List.cons_append]
  rfl

@[simp]
theorem denoted_leaf (derivation : PredicateDerivation) :
    denoted (.leaf derivation) = .leaf derivation.predicate := by
  simp [denoted]

@[simp]
theorem denoted_group (inner : ConditionDerivation) :
    denoted (.group inner) = .group (condition inner) := by
  simp only [denoted, Tree.fold_group, condition]
  rfl

@[simp]
theorem tokens_single (term : Tree PredicateDerivation) : tokens (.single term) = termTokens term :=
  rfl

@[simp]
theorem tokens_link (term : Tree PredicateDerivation) (join : Join)
    (rest : ConditionDerivation) :
    tokens (.link term join rest) = termTokens term ++ .join join :: tokens rest :=
  rfl

/-- Nothing follows, or the closing parenthesis of the group that a chain stands in. -/
def EndsChain (rest : List Token) : Prop :=
  ∀ token ∈ rest.head?, token = .closeParen

@[simp]
theorem endsChain_nil : EndsChain [] := by
  simp [EndsChain]

@[simp]
theorem endsChain_cons (token : Token) (rest : List Token) :
    EndsChain (token :: rest) ↔ token = .closeParen := by
  simp [EndsChain]

/-- Chains are determined by their tokens and what ends them, if their terms are. -/
theorem unique_of_terms {first : ConditionDerivation}
    (terms : ∀ term ∈ first.items, ∀ other rest others,
      termTokens term ++ rest = termTokens other ++ others → term = other ∧ rest = others)
    {second : ConditionDerivation} {rest others : List Token}
    (restEnds : EndsChain rest) (othersEnd : EndsChain others)
    (same : tokens first ++ rest = tokens second ++ others) :
    first = second ∧ rest = others := by
  induction first generalizing second with
  | single term =>
      cases second with
      | single other =>
          obtain ⟨rfl, sameRest⟩ := terms term (by simp [Chain.items]) other rest others same
          exact ⟨rfl, sameRest⟩
      | link other join later =>
          rw [tokens_link, List.append_assoc] at same
          obtain ⟨_, rfl⟩ := terms term (by simp [Chain.items]) _ _ _ same
          -- what follows the one term would begin with a join, which ends no chain
          simp at restEnds
  | link term join later inductionHypothesis =>
      rw [tokens_link, List.append_assoc] at same
      cases second with
      | single other =>
          obtain ⟨_, rfl⟩ := terms term (by simp [Chain.items]) _ _ _ same
          simp at othersEnd
      | link other otherJoin otherLater =>
          rw [tokens_link, List.append_assoc] at same
          obtain ⟨rfl, sameLater⟩ := terms term (by simp [Chain.items]) _ _ _ same
          simp only [List.cons_append, List.cons.injEq, Token.join.injEq] at sameLater
          obtain ⟨rfl, sameLater⟩ := sameLater
          obtain ⟨rfl, sameRest⟩ := inductionHypothesis
            (fun next member => terms next (by simp [Chain.items, member])) sameLater
          exact ⟨rfl, sameRest⟩

/-- Where a term ends can be seen from its tokens. -/
theorem term_unique {term other : Tree PredicateDerivation} {rest others : List Token}
    (same : termTokens term ++ rest = termTokens other ++ others) :
    term = other ∧ rest = others := by
  induction term using Tree.inductOn generalizing other rest others with
  | leaf derivation =>
      cases other with
      | leaf otherDerivation =>
          rw [termTokens_leaf, termTokens_leaf] at same
          obtain ⟨rfl, sameRest⟩ := PredicateDerivation.tokens_unique same
          exact ⟨rfl, sameRest⟩
      | group inner =>
          simp [PredicateDerivation.tokens] at same
  | group inner inductionHypothesis =>
      cases other with
      | leaf otherDerivation =>
          simp [PredicateDerivation.tokens] at same
      | group otherInner =>
          simp only [termTokens_group, List.cons_append, List.append_assoc, List.nil_append,
            List.cons.injEq, true_and] at same
          obtain ⟨rfl, sameRest⟩ := unique_of_terms
            (fun term member _ _ _ => inductionHypothesis term member) (by simp) (by simp) same
          exact ⟨rfl, (List.cons.inj sameRest).2⟩

theorem tokens_injective : Function.Injective tokens := by
  intro first second same
  have extended : tokens first ++ [] = tokens second ++ [] := by
    rw [same]
  exact (unique_of_terms (fun _ _ _ _ _ => term_unique) endsChain_nil endsChain_nil extended).1

end ConditionDerivation

end DocQuery
