import DocQuery.Proofs.Expression.Scanning

/-!
# Tokens and the expressions they are read as

Tokens are read as a disjunction, a conjunction or a factor whatever stands behind them, as long
as that does not go on with an operator that would belong to them. A disjunction in parentheses is
a factor, so that an expression can be put together from parts that are read alone.
-/

namespace DocQuery.Expression

/-- How tightly an expression holds together. -/
inductive Strength where
  | factor
  | conjunction
  | disjunction

/-- The tokens are read as this expression, and what stands behind them is left. -/
def Reads : Strength → List Token → Expression → Prop
  | .factor, tokens, expression =>
      ∀ fuel rest, 3 * tokens.length + 1 ≤ fuel →
        readFactor fuel (tokens ++ rest) = some (expression, rest)
  | .conjunction, tokens, expression =>
      ∀ fuel rest, 3 * tokens.length + 2 ≤ fuel → rest.head? ≠ some (.keyword .and) →
        readConjunction fuel (tokens ++ rest) = some (expression, rest)
  | .disjunction, tokens, expression =>
      ∀ fuel rest, 3 * tokens.length + 3 ≤ fuel → rest.head? ≠ some (.keyword .and) →
        rest.head? ≠ some (.keyword .or) →
          readDisjunction fuel (tokens ++ rest) = some (expression, rest)

namespace Reads

theorem conjunction_of_factor {tokens : List Token} {expression : Expression}
    (reads : Reads .factor tokens expression) : Reads .conjunction tokens expression := by
  intro fuel rest enough noAnd
  cases fuel with
  | zero =>
      omega
  | succ fuel =>
      rw [readConjunction, reads fuel rest (by omega)]
      simp only [Option.bind_eq_bind, Option.bind_some]
      split
      · simp_all
      · simp_all

theorem disjunction_of_conjunction {tokens : List Token} {expression : Expression}
    (reads : Reads .conjunction tokens expression) : Reads .disjunction tokens expression := by
  intro fuel rest enough noAnd noOr
  cases fuel with
  | zero =>
      omega
  | succ fuel =>
      rw [readDisjunction, reads fuel rest (by omega) noAnd]
      simp only [Option.bind_eq_bind, Option.bind_some]
      split
      · simp_all
      · simp_all

theorem and {left right : List Token} {first others : Expression}
    (leftReads : Reads .factor left first) (rightReads : Reads .conjunction right others) :
    Reads .conjunction (left ++ .keyword .and :: right) (.and first others) := by
  intro fuel rest enough noAnd
  simp only [List.length_append, List.length_cons] at enough
  cases fuel with
  | zero =>
      omega
  | succ fuel =>
      rw [List.append_assoc, readConjunction, leftReads fuel _ (by omega)]
      simp [rightReads fuel rest (by omega) noAnd]

theorem or {left right : List Token} {first others : Expression}
    (leftReads : Reads .conjunction left first) (rightReads : Reads .disjunction right others) :
    Reads .disjunction (left ++ .keyword .or :: right) (.or first others) := by
  intro fuel rest enough noAnd noOr
  simp only [List.length_append, List.length_cons] at enough
  cases fuel with
  | zero =>
      omega
  | succ fuel =>
      rw [List.append_assoc, readDisjunction, leftReads fuel _ (by omega) (by simp)]
      simp [rightReads fuel rest (by omega) noAnd noOr]

theorem parenthesized {tokens : List Token} {inner : Expression}
    (reads : Reads .disjunction tokens inner) :
    Reads .factor (.openParen :: tokens ++ [.closeParen]) inner := by
  intro fuel rest enough
  simp only [List.length_append, List.length_cons, List.length_nil] at enough
  cases fuel with
  | zero =>
      omega
  | succ fuel =>
      have insideRead :=
        reads fuel (.closeParen :: rest) (by omega) (by simp) (by simp)
      rw [List.cons_append, List.cons_append, List.append_assoc, List.cons_append,
        List.nil_append, readFactor, insideRead]
      simp

theorem not {tokens : List Token} {inner : Expression} (reads : Reads .factor tokens inner) :
    Reads .factor (.keyword .not :: tokens) (.not inner) := by
  intro fuel rest enough
  simp only [List.length_cons] at enough
  cases fuel with
  | zero =>
      omega
  | succ fuel =>
      rw [List.cons_append, readFactor, reads fuel rest (by omega)]
      simp

/-- A comparison that begins neither with `NOT` nor with a parenthesis is a factor. -/
theorem comparison {tokens : List Token} {expression : Expression}
    (begins : ∃ first ∈ tokens.head?, first ≠ .keyword .not ∧ first ≠ .openParen)
    (reads : ∀ rest, readComparison (tokens ++ rest) = some (expression, rest)) :
    Reads .factor tokens expression := by
  intro fuel rest enough
  obtain ⟨first, isFirst, notNegation, notGroup⟩ := begins
  obtain ⟨others, rfl⟩ := List.head?_eq_some_iff.mp isFirst
  cases fuel with
  | zero =>
      omega
  | succ fuel =>
      rw [List.cons_append, readFactor, ← List.cons_append, reads rest]
      · simpa using notNegation
      · simpa using notGroup

theorem ofTokens?_eq {tokens : List Token} {expression : Expression}
    (reads : Reads .disjunction tokens expression) :
    ofTokens? tokens = some expression := by
  have readAll := reads (3 * tokens.length + 3) [] (by omega) (by simp) (by simp)
  rw [List.append_nil] at readAll
  rw [ofTokens?, readAll]

end Reads

def pathTokens : List String → List Token
  | [] => []
  | [segment] => [.name segment]
  | segment :: rest => .name segment :: .dot :: pathTokens rest

def valueTokens : List Attribute → List Token
  | [] => []
  | [value] => [.value value]
  | value :: rest => .value value :: .comma :: valueTokens rest

theorem dot_mem_pathTokens {segments : List String} :
    .dot ∈ pathTokens segments ↔ 1 < segments.length := by
  fun_cases pathTokens segments with
  | case1 =>
      simp
  | case2 segment =>
      simp
  | case3 segment others nonempty =>
      simp [List.length_pos_iff.mpr nonempty]

theorem dot_not_mem_valueTokens (values : List Attribute) : .dot ∉ valueTokens values := by
  fun_induction valueTokens values with
  | case1 =>
      simp
  | case2 value =>
      simp
  | case3 value others _ inductionHypothesis =>
      simp [inductionHypothesis]

theorem readPath_pathTokens {segments : List String} {rest : List Token}
    (nonempty : segments ≠ []) (noDot : rest.head? ≠ some .dot) :
    readPath (pathTokens segments ++ rest) = some (segments, rest) := by
  fun_induction pathTokens segments with
  | case1 =>
      exact absurd rfl nonempty
  | case2 segment =>
      cases rest with
      | nil =>
          simp [readPath]
      | cons token others =>
          cases token <;> simp_all [readPath]
  | case3 segment others otherNonempty inductionHypothesis =>
      simp [readPath, inductionHypothesis otherNonempty]

theorem head?_pathTokens {segments : List String} (nonempty : segments ≠ []) :
    ∃ segment, (pathTokens segments).head? = some (.name segment) := by
  fun_cases pathTokens segments with
  | case1 =>
      exact absurd rfl nonempty
  | case2 segment =>
      exact ⟨segment, rfl⟩
  | case3 segment others _ =>
      exact ⟨segment, rfl⟩

theorem readField_pathTokens {segments : List String} (nonempty : segments ≠ [])
    (rest : List Token) (noDot : rest.head? ≠ some .dot) :
    readField (pathTokens segments ++ rest) =
      some (String.intercalate "." segments, rest) := by
  simp [readField, readPath_pathTokens nonempty noDot]

theorem readComparison_pathTokens {segments : List String} (nonempty : segments ≠ [])
    (rest : List Token) (noDot : rest.head? ≠ some .dot) :
    readComparison (pathTokens segments ++ rest) =
      readInfix (String.intercalate "." segments) rest := by
  have readPath := readField_pathTokens nonempty rest noDot
  obtain ⟨segment, isFirst⟩ := head?_pathTokens nonempty
  obtain ⟨others, shape⟩ := List.head?_eq_some_iff.mp isFirst
  rw [shape] at readPath ⊢
  simp only [List.cons_append] at readPath ⊢
  simp [readComparison, readPath]

theorem readValues_valueTokens {values : List Attribute} (nonempty : values ≠ [])
    (rest : List Token) :
    readValues (valueTokens values ++ .closeParen :: rest) = some (values, rest) := by
  fun_induction valueTokens values with
  | case1 =>
      exact absurd rfl nonempty
  | case2 value =>
      simp [readValues]
  | case3 value others otherNonempty inductionHypothesis =>
      simp [readValues, inductionHypothesis otherNonempty]

end DocQuery.Expression
