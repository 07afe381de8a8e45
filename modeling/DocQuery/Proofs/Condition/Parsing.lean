import DocQuery.Condition.Reader
import DocQuery.Proofs.Condition.Derivation
import DocQuery.Proofs.Fallible

/-!
# What the reader of conditions accepts

The readers of values, lists, comparisons and predicates take exactly the tokens that their
rules spell. The readers of terms and chains call each other, so that they are first described
by what one of them does with the results of the other; from that, a reading gives a derivation
by induction on the number of tokens, and a derivation is read by induction on its terms.
-/

namespace DocQuery.Condition

variable {leaf tokens rest : List Token}

theorem readOperand_eq_ok_iff {operand : Operand} :
    readOperand leaf tokens = .ok (operand, rest) ↔
      ∃ value : ValueDerivation, tokens = value.token :: rest ∧ value.operand = operand := by
  cases tokens with
  | nil =>
      simp [readOperand]
  | cons token later =>
      simp only [readOperand]
      split
      · next known found =>
          obtain ⟨value, rfl, rfl⟩ := ValueDerivation.operand?_eq_some_iff.mp found
          constructor
          · intro read
            simp only [Except.ok.injEq, Prod.mk.injEq] at read
            exact ⟨value, by rw [read.2], read.1⟩
          · rintro ⟨other, same, rfl⟩
            obtain ⟨sameToken, rfl⟩ := List.cons.inj same
            rw [ValueDerivation.token_injective sameToken]
      · next unknown =>
          constructor
          · intro read
            cases read
          · rintro ⟨value, same, rfl⟩
            obtain ⟨rfl, rfl⟩ := List.cons.inj same
            simp at unknown

theorem readOperand_token (value : ValueDerivation) :
    readOperand leaf (value.token :: rest) = .ok (value.operand, rest) :=
  readOperand_eq_ok_iff.mpr ⟨value, rfl, rfl⟩

theorem readMembers_memberTokens (values : List ValueDerivation) :
    readMembers leaf (ValueDerivation.memberTokens values ++ .closeParen :: rest) =
      .ok (values.map ValueDerivation.operand, rest) := by
  induction values with
  | nil =>
      rfl
  | cons value later inductionHypothesis =>
      simp only [ValueDerivation.memberTokens_cons, List.cons_append, readMembers,
        ValueDerivation.operand?_token, inductionHypothesis, List.map_cons]
      rfl

theorem readMembers_eq_ok_iff {operands : List Operand} :
    readMembers leaf tokens = .ok (operands, rest) ↔
      ∃ values : List ValueDerivation,
        tokens = ValueDerivation.memberTokens values ++ .closeParen :: rest ∧
          values.map ValueDerivation.operand = operands := by
  constructor
  · intro read
    fun_induction readMembers leaf tokens generalizing operands with
    | case1 later =>
        cases read
        exact ⟨[], rfl, rfl⟩
    | case2 =>
        cases read
    | case3 token later operand found inductionHypothesis =>
        obtain ⟨value, rfl, rfl⟩ := ValueDerivation.operand?_eq_some_iff.mp found
        obtain ⟨⟨others, after⟩, laterRead, same⟩ := Fallible.bind_eq_ok_iff.mp read
        simp only [Fallible.pure_eq_ok_iff, Prod.mk.injEq] at same
        obtain ⟨rfl, rfl⟩ := same
        obtain ⟨values, rfl, rfl⟩ := inductionHypothesis laterRead
        exact ⟨value :: values, rfl, rfl⟩
    | case4 =>
        cases read
    | case5 =>
        cases read
  · rintro ⟨values, rfl, rfl⟩
    exact readMembers_memberTokens values

theorem readCandidates_tokens (candidates : CandidatesDerivation) :
    readCandidates leaf (candidates.tokens ++ rest) = .ok (candidates.operand, rest) := by
  cases candidates with
  | single value =>
      cases value <;> rfl
  | list first others =>
      simp only [CandidatesDerivation.tokens, List.cons_append, List.append_assoc,
        List.nil_append, readCandidates, readOperand_token, bind, Except.bind,
        readMembers_memberTokens]
      rfl

theorem readCandidates_eq_ok_iff {operand : Operand} :
    readCandidates leaf tokens = .ok (operand, rest) ↔
      ∃ candidates : CandidatesDerivation,
        tokens = candidates.tokens ++ rest ∧ candidates.operand = operand := by
  constructor
  · intro read
    unfold readCandidates at read
    split at read
    · next later =>
        obtain ⟨⟨firstOperand, after⟩, firstRead, listRead⟩ :=
          Fallible.bind_eq_ok_iff.mp read
        obtain ⟨⟨others, behind⟩, othersRead, same⟩ := Fallible.bind_eq_ok_iff.mp listRead
        simp only [Fallible.pure_eq_ok_iff, Prod.mk.injEq] at same
        obtain ⟨rfl, rfl⟩ := same
        obtain ⟨first, rfl, rfl⟩ := readOperand_eq_ok_iff.mp firstRead
        obtain ⟨values, rfl, rfl⟩ := readMembers_eq_ok_iff.mp othersRead
        exact ⟨.list first values, by simp [CandidatesDerivation.tokens], rfl⟩
    · obtain ⟨value, rfl, rfl⟩ := readOperand_eq_ok_iff.mp read
      exact ⟨.single value, rfl, rfl⟩
  · rintro ⟨candidates, rfl, rfl⟩
    exact readCandidates_tokens candidates

theorem readComparison_tokens (comparison : ComparisonDerivation) :
    readComparison leaf (comparison.tokens ++ rest) =
      .ok (comparison.operator, comparison.operand?, rest) := by
  cases comparison with
  | compare _ value | like value =>
      simp only [ComparisonDerivation.tokens, List.cons_append, List.nil_append,
        readComparison, readOperand_token]
      rfl
  | isIn candidates | notIn candidates =>
      simp only [ComparisonDerivation.tokens, List.cons_append, readComparison,
        readCandidates_tokens]
      rfl
  | isNull =>
      rfl
  | isNotNull =>
      rfl

theorem readComparison_eq_ok_iff {operator : Operator} {operand : Option Operand} :
    readComparison leaf tokens = .ok (operator, operand, rest) ↔
      ∃ comparison : ComparisonDerivation,
        tokens = comparison.tokens ++ rest ∧ comparison.operator = operator ∧
          comparison.operand? = operand := by
  constructor
  · intro read
    unfold readComparison at read
    split at read
    case h_1 | h_2 =>
      obtain ⟨⟨found, after⟩, valueRead, same⟩ := Fallible.bind_eq_ok_iff.mp read
      simp only [Fallible.pure_eq_ok_iff, Prod.mk.injEq] at same
      obtain ⟨rfl, rfl, rfl⟩ := same
      obtain ⟨value, rfl, rfl⟩ := readOperand_eq_ok_iff.mp valueRead
      first
      | exact ⟨.compare _ value, rfl, rfl, rfl⟩
      | exact ⟨.like value, rfl, rfl, rfl⟩
    case h_3 | h_4 =>
      obtain ⟨⟨found, after⟩, candidatesRead, same⟩ := Fallible.bind_eq_ok_iff.mp read
      simp only [Fallible.pure_eq_ok_iff, Prod.mk.injEq] at same
      obtain ⟨rfl, rfl, rfl⟩ := same
      obtain ⟨candidates, rfl, rfl⟩ := readCandidates_eq_ok_iff.mp candidatesRead
      first
      | exact ⟨.isIn candidates, rfl, rfl, rfl⟩
      | exact ⟨.notIn candidates, rfl, rfl, rfl⟩
    case h_6 =>
      cases read
      exact ⟨.isNull, rfl, rfl, rfl⟩
    case h_7 =>
      cases read
      exact ⟨.isNotNull, rfl, rfl, rfl⟩
    all_goals cases read
  · rintro ⟨comparison, rfl, rfl, rfl⟩
    exact readComparison_tokens comparison

theorem readPredicate_eq_ok_iff {predicate : Predicate} :
    readPredicate tokens = .ok (predicate, rest) ↔
      ∃ derivation : PredicateDerivation,
        tokens = derivation.tokens ++ rest ∧ derivation.predicate = predicate ∧
          Token.endsTerm rest.head? = true := by
  constructor
  · intro read
    unfold readPredicate at read
    split at read
    · next field later =>
        obtain ⟨⟨operator, operand, after⟩, comparisonRead, ended⟩ :=
          Fallible.bind_eq_ok_iff.mp read
        obtain ⟨comparison, rfl, rfl, rfl⟩ := readComparison_eq_ok_iff.mp comparisonRead
        dsimp only at ended
        split at ended
        · next ends =>
            cases ended
            exact ⟨⟨field, comparison⟩, rfl, rfl, ends⟩
        · cases ended
    · split at read <;> cases read
  · rintro ⟨⟨field, comparison⟩, rfl, rfl, ends⟩
    simp only [PredicateDerivation.tokens, List.cons_append, readPredicate]
    rw [readComparison_tokens]
    simp only [bind, Except.bind, ends, if_true]
    rfl

/-- The outcome is a reading that gives the value and leaves the rest. -/
def Reads {α : Type} (outcome : Except QueryFault (Reading α tokens)) (value : α)
    (rest : List Token) : Prop :=
  ∃ reading, outcome = .ok reading ∧ reading.value = value ∧ reading.rest = rest

section Reads

variable {α : Type} {value : α}

@[simp]
theorem reads_error (fault : QueryFault) :
    ¬ Reads (.error fault : Except QueryFault (Reading α tokens)) value rest := by
  rintro ⟨reading, same, -⟩
  cases same

@[simp]
theorem reads_ok (reading : Reading α tokens) :
    Reads (.ok reading) value rest ↔ reading.value = value ∧ reading.rest = rest := by
  simp [Reads]

end Reads

theorem readLeaf_reads_iff {tree : Tree Predicate} :
    Reads (readLeaf tokens) tree rest ↔
      ∃ derivation : PredicateDerivation,
        tokens = derivation.tokens ++ rest ∧ Tree.leaf derivation.predicate = tree ∧
          Token.endsTerm rest.head? = true := by
  unfold readLeaf
  split
  · next fault failed =>
      simp only [reads_error, false_iff]
      rintro ⟨derivation, spelled, -, ends⟩
      rw [readPredicate_eq_ok_iff.mpr ⟨derivation, spelled, rfl, ends⟩] at failed
      cases failed
  · next predicate after read =>
      simp only [reads_ok]
      constructor
      · rintro ⟨rfl, rfl⟩
        obtain ⟨derivation, spelled, rfl, ends⟩ := readPredicate_eq_ok_iff.mp read
        exact ⟨derivation, spelled, rfl, ends⟩
      · rintro ⟨derivation, spelled, rfl, ends⟩
        rw [readPredicate_eq_ok_iff.mpr ⟨derivation, spelled, rfl, ends⟩] at read
        cases read
        exact ⟨rfl, rfl⟩

/-- A chain is read as a term, behind which it ends or goes on with a join and a chain. -/
theorem readChain_reads_iff {condition : Condition} :
    Reads (readChain tokens) condition rest ↔
      ∃ first after, Reads (readTerm tokens) first after ∧
        ((Chain.single first = condition ∧ after = rest ∧
            ∀ join later, after ≠ .join join :: later) ∨
          ∃ join later others, after = .join join :: later ∧
            Reads (readChain later) others rest ∧ Chain.link first join others = condition) := by
  rw [readChain]
  split
  · next fault failed =>
      simp [failed]
  · next first termRead =>
      simp only [termRead, reads_ok]
      split
      · next join later follows =>
          split
          · next fault failed =>
              simp [follows, failed]
          · next others chainRead =>
              simp only [reads_ok]
              constructor
              · rintro ⟨rfl, rfl⟩
                exact ⟨_, _, ⟨rfl, rfl⟩, .inr ⟨join, later, others.value, follows,
                  by simp [chainRead], rfl⟩⟩
              · rintro ⟨_, _, ⟨rfl, rfl⟩, ⟨-, -, ends⟩ | ⟨_, _, _, same, read, rfl⟩⟩
                · exact absurd follows (ends join later)
                · rw [follows] at same
                  cases same
                  rw [chainRead, reads_ok] at read
                  obtain ⟨rfl, rfl⟩ := read
                  exact ⟨rfl, rfl⟩
      · next ends =>
          simp only [reads_ok]
          constructor
          · rintro ⟨rfl, rfl⟩
            exact ⟨_, _, ⟨rfl, rfl⟩, .inl ⟨rfl, rfl, ends⟩⟩
          · rintro ⟨_, _, ⟨rfl, rfl⟩, ⟨rfl, rfl, -⟩ | ⟨join, later, _, same, -⟩⟩
            · exact ⟨rfl, rfl⟩
            · exact absurd same (ends join later)

theorem not_reads_closeParen {condition : Condition} {later : List Token} :
    ¬ Reads (readChain (.closeParen :: later)) condition rest := by
  intro read
  obtain ⟨first, after, termRead, -⟩ := readChain_reads_iff.mp read
  simp only [readTerm] at termRead
  obtain ⟨derivation, spelled, -⟩ := readLeaf_reads_iff.mp termRead
  simp [PredicateDerivation.tokens] at spelled

/-- A term is read as a predicate or as a chain in parentheses. -/
theorem readTerm_reads_iff {tree : Tree Predicate} :
    Reads (readTerm tokens) tree rest ↔
      (∃ derivation : PredicateDerivation,
        tokens = derivation.tokens ++ rest ∧ Tree.leaf derivation.predicate = tree ∧
          Token.endsTerm rest.head? = true) ∨
      ∃ later inner, tokens = .openParen :: later ∧
        Reads (readChain later) inner (.closeParen :: rest) ∧ Tree.group inner = tree := by
  rw [readTerm.eq_def]
  split
  · next later =>
      have noPredicate (derivation : PredicateDerivation) :
          ¬ .openParen :: later = derivation.tokens ++ rest := by
        simp [PredicateDerivation.tokens]
      simp only [noPredicate, false_and, exists_false, false_or, List.cons.injEq, true_and]
      split
      · next closed =>
          obtain ⟨behind, rfl⟩ := List.head?_eq_some_iff.mp closed
          simp only [reads_error, false_iff]
          rintro ⟨_, inner, rfl, read, -⟩
          -- an empty group is refused at once, and no chain could be read from it either
          exact not_reads_closeParen read
      · split
        · next fault failed =>
            simp [failed]
        · next inner chainRead =>
            split
            · next after follows =>
                simp [chainRead, follows, and_comm]
            · next follows =>
                simp [chainRead, follows]
            · next token after different follows =>
                have unclosed : token ≠ .closeParen := fun closed => different closed
                simp [chainRead, follows, unclosed]
  · next different =>
      have noGroup (later : List Token) : ¬ tokens = .openParen :: later :=
        fun same => different later same
      simp [readLeaf_reads_iff, noGroup]

open ConditionDerivation

mutual

/-- A term that is read was spelled by a derivation of it. The induction follows the readers: a
term in parentheses holds a chain of fewer tokens, and a chain goes on behind a term with
fewer. -/
theorem exists_derivation_of_term (tokens : List Token) {rest : List Token}
    {tree : Tree Predicate} (read : Reads (readTerm tokens) tree rest) :
    ∃ term, tokens = termTokens term ++ rest ∧ denoted term = tree := by
  obtain ⟨predicate, rfl, rfl, -⟩ | ⟨later, inner, same, chainRead, rfl⟩ :=
    readTerm_reads_iff.mp read
  · exact ⟨.leaf predicate, by simp, by simp⟩
  · have fewer : later.length < tokens.length := by simp [same]
    obtain ⟨derivation, spelled, rfl⟩ := exists_derivation_of_chain later chainRead
    exact ⟨.group derivation, by simp [same, spelled], by simp⟩
termination_by 2 * tokens.length

theorem exists_derivation_of_chain (tokens : List Token) {rest : List Token}
    {condition : Condition} (read : Reads (readChain tokens) condition rest) :
    ∃ derivation : ConditionDerivation,
      tokens = derivation.tokens ++ rest ∧ derivation.condition = condition := by
  obtain ⟨first, after, termRead, onwards⟩ := readChain_reads_iff.mp read
  obtain ⟨term, spelled, rfl⟩ := exists_derivation_of_term tokens termRead
  obtain ⟨rfl, rfl, -⟩ | ⟨join, later, others, rfl, chainRead, rfl⟩ := onwards
  · exact ⟨.single term, spelled, rfl⟩
  · have fewer : later.length < tokens.length := by
      rw [spelled, List.length_append, List.length_cons]
      omega
    obtain ⟨derivation, same, rfl⟩ := exists_derivation_of_chain later chainRead
    exact ⟨.link term join derivation, by simp [spelled, same], rfl⟩
termination_by 2 * tokens.length + 1

end

theorem endsTerm_of_endsChain (ends : EndsChain rest) : Token.endsTerm rest.head? = true := by
  cases rest with
  | nil =>
      rfl
  | cons token later =>
      rw [endsChain_cons] at ends
      rw [ends]
      rfl

theorem reads_chain_of_terms (derivation : ConditionDerivation)
    (terms : ∀ term ∈ derivation.items, ∀ rest : List Token,
      Token.endsTerm rest.head? = true →
        Reads (readTerm (termTokens term ++ rest)) (denoted term) rest)
    (ends : EndsChain rest) :
    Reads (readChain (derivation.tokens ++ rest)) derivation.condition rest := by
  induction derivation with
  | single term =>
      have termRead := terms term (by simp [Chain.items]) rest (endsTerm_of_endsChain ends)
      refine readChain_reads_iff.mpr ⟨_, _, termRead, .inl ⟨rfl, rfl, ?_⟩⟩
      rintro join later rfl
      simp at ends
  | link term join later inductionHypothesis =>
      have termRead := terms term (by simp [Chain.items])
        (.join join :: (ConditionDerivation.tokens later ++ rest)) rfl
      have laterRead := inductionHypothesis
        fun next member => terms next (by simp [Chain.items, member])
      refine readChain_reads_iff.mpr ⟨_, _, ?_, .inr ⟨join, _, _, rfl, laterRead, rfl⟩⟩
      rw [tokens_link, List.append_assoc]
      exact termRead

theorem reads_term (term : Tree PredicateDerivation) (rest : List Token)
    (ends : Token.endsTerm rest.head? = true) :
    Reads (readTerm (termTokens term ++ rest)) (denoted term) rest := by
  induction term using Tree.inductOn generalizing rest with
  | leaf predicate =>
      exact readTerm_reads_iff.mpr (.inl ⟨predicate, by simp, by simp, ends⟩)
  | group inner inductionHypothesis =>
      have closed : EndsChain (.closeParen :: rest) := by simp
      have innerRead := reads_chain_of_terms inner inductionHypothesis closed
      exact readTerm_reads_iff.mpr (.inr ⟨_, _, by simp, innerRead, by simp⟩)

theorem readChain_all_iff {condition : Condition} :
    Reads (readChain tokens) condition [] ↔
      ∃ derivation : ConditionDerivation,
        derivation.tokens = tokens ∧ derivation.condition = condition := by
  constructor
  · intro read
    obtain ⟨derivation, spelled, denotes⟩ := exists_derivation_of_chain tokens read
    exact ⟨derivation, by simp [spelled], denotes⟩
  · rintro ⟨derivation, rfl, rfl⟩
    have read := reads_chain_of_terms derivation (fun term _ => reads_term term) endsChain_nil
    rwa [List.append_nil] at read

theorem ofTokens_eq_ok_iff {condition : Condition} :
    ofTokens tokens = .ok condition ↔
      ∃ derivation : ConditionDerivation,
        derivation.tokens = tokens ∧ derivation.condition = condition := by
  rw [← readChain_all_iff, ofTokens]
  split
  · next fault failed =>
      simp [failed]
  · next reading read =>
      rw [read, reads_ok]
      split
      · next finished =>
          simp [finished]
      · next stray =>
          simp [stray]
      · next left =>
          simp [left]

theorem ofWord_eq_keyword_iff
    {entry : String × Token}
    (known : entry ∈ Token.keywords)
    (word : List Char) :
    Token.ofWord word = entry.2 ↔ String.ofList (word.map Char.toLower) = entry.1 := by
  have found : ∀ entry ∈ Token.keywords, Token.keywords.lookup entry.1 = some entry.2 := by
    decide
  have spelledOnce : ∀ first ∈ Token.keywords, ∀ second ∈ Token.keywords,
      first.2 = second.2 → first.1 = second.1 := by
    decide
  have noIdentifier : ∀ entry ∈ Token.keywords, ∀ name, Token.identifier name ≠ entry.2 := by
    simp [Token.keywords]
  constructor
  · intro same
    unfold Token.ofWord at same
    split at same
    · next keyword lowered =>
        obtain ⟨before, after, split, -⟩ := List.lookup_eq_some_iff.mp lowered
        have member : (String.ofList (word.map Char.toLower), keyword) ∈ Token.keywords := by
          simp [split]
        exact spelledOnce _ member entry known same
    · exact absurd same (noIdentifier entry known _)
  · intro spelled
    simp only [Token.ofWord, spelled, found entry known]

/-- The texts that are conditions are those whose tokens have a derivation, and what is read is
what the derivation denotes. There is one derivation at most. Keywords are words in any mixture
of cases, and two spellings of the inequality give one token. -/
theorem parse_grammar :
    (∀ text condition, parse text = .ok condition ↔
      Text.trim text.toList ≠ [] ∧
        ∃ derivation : ConditionDerivation,
          Lexer.scan (Text.trim text.toList) = .ok derivation.tokens ∧
            derivation.condition = condition) ∧
    Function.Injective ConditionDerivation.tokens ∧
    (∀ entry ∈ Token.keywords, ∀ word : List Char,
      Token.ofWord word = entry.2 ↔ String.ofList (word.map Char.toLower) = entry.1) ∧
    ∀ rest : List Char,
      Lexer.front '!' ('=' :: rest) = .ok (.comparator .ne, rest) ∧
        Lexer.front '<' ('>' :: rest) = .ok (.comparator .ne, rest) := by
  refine ⟨?_, tokens_injective, fun entry known => ofWord_eq_keyword_iff known,
    fun rest => ⟨rfl, rfl⟩⟩
  intro text condition
  unfold parse
  split
  · next blank =>
      simp [blank]
  · next trimmed filled =>
      have nonempty : Text.trim text.toList ≠ [] := filled
      split
      · next fault failed =>
          simp [failed]
      · next tokens scanned =>
          rw [ofTokens_eq_ok_iff, scanned, and_iff_right nonempty]
          simp only [Except.ok.injEq, @eq_comm _ tokens]

end DocQuery.Condition
