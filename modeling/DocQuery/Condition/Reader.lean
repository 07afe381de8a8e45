import DocQuery.Condition.Lexer
import DocQuery.Text.Blank

/-!
# Reading conditions

The grammar, with keywords in any mixture of cases:

* a condition is a term, or several terms with `AND` or `OR` between neighbours;
* a term is a condition in parentheses or a predicate;
* a predicate is a field with a comparison and a value, `LIKE` and a value, `IN` or `NOT IN` and
  a value or a list of values in parentheses, or `IS NULL` or `IS NOT NULL`;
* a value is a placeholder, a number or a string.

The reading of a term or a condition carries the proof that it used up a token, so that the
mutual recursion ends.
-/

namespace DocQuery.Condition

/-- A value that the tokens begin with, and the fewer tokens behind it. -/
structure Reading (α : Type) (tokens : List Token) where
  value : α
  rest : List Token
  shorter : rest.length < tokens.length

/-- The error that rejects the predicate that `leaf` begins with. -/
def unsupported (leaf : List Token) (reason : Unsupported) : QueryFault :=
  .unsupportedCondition (Token.leafText leaf) reason

def readOperand (leaf : List Token) : List Token → Except QueryFault (Operand × List Token)
  | [] => .error (unsupported leaf .valueExpected)
  | token :: rest =>
      match token.operand? with
      | some operand => .ok (operand, rest)
      | none => .error (unsupported leaf .valueExpected)

/-- The values of a list behind the first one, and its closing parenthesis. -/
def readMembers (leaf : List Token) : List Token → Except QueryFault (List Operand × List Token)
  | .closeParen :: rest => .ok ([], rest)
  | [.comma] => .error (unsupported leaf .valueExpected)
  | .comma :: token :: rest =>
      match token.operand? with
      | some operand => do
          let (operands, rest) ← readMembers leaf rest
          return (operand :: operands, rest)
      | none => .error (unsupported leaf .valueExpected)
  | _ => .error (unsupported leaf .unclosedList)

/-- What `IN` compares with: a list of values in parentheses, or one value. -/
def readCandidates (leaf tokens : List Token) : Except QueryFault (Operand × List Token) :=
  match tokens with
  | .openParen :: rest => do
      let (first, rest) ← readOperand leaf rest
      let (others, rest) ← readMembers leaf rest
      return (.list (first :: others), rest)
  | _ => readOperand leaf tokens

/-- The operator of a predicate and its value, behind the field. -/
def readComparison (leaf : List Token) :
    List Token → Except QueryFault (Operator × Option Operand × List Token)
  | .comparator comparator :: rest => do
      let (operand, rest) ← readOperand leaf rest
      return (.compare comparator, some operand, rest)
  | .like :: rest => do
      let (operand, rest) ← readOperand leaf rest
      return (.like, some operand, rest)
  | .isIn :: rest => do
      let (operand, rest) ← readCandidates leaf rest
      return (.isIn, some operand, rest)
  | .not :: .isIn :: rest => do
      let (operand, rest) ← readCandidates leaf rest
      return (.notIn, some operand, rest)
  | .not :: _ => .error (unsupported leaf .notWithoutIn)
  | .is :: .null :: rest => .ok (.isNull, none, rest)
  | .is :: .not :: .null :: rest => .ok (.isNotNull, none, rest)
  | .is :: _ => .error (unsupported leaf .isWithoutNull)
  | .between :: _ => .error (unsupported leaf .between)
  | _ => .error (unsupported leaf .operatorExpected)

/-- One predicate, behind which a term may end. -/
def readPredicate (tokens : List Token) : Except QueryFault (Predicate × List Token) :=
  match tokens with
  | .identifier field :: rest => do
      let (operator, operand, rest) ← readComparison tokens rest
      if Token.endsTerm rest.head? then
        return (⟨field, operator, operand⟩, rest)
      else
        .error (unsupported tokens .trailingInput)
  | _ =>
      if Token.endsTerm tokens.head? then .error (.badSyntax (.unexpected tokens.head?))
      else .error (unsupported tokens .fieldExpected)

theorem readOperand_length {leaf tokens rest : List Token} {operand : Operand}
    (read : readOperand leaf tokens = .ok (operand, rest)) : rest.length < tokens.length := by
  unfold readOperand at read
  split at read
  · cases read
  · split at read
    · cases read; simp
    · cases read

theorem readMembers_length {leaf tokens rest : List Token} {operands : List Operand}
    (read : readMembers leaf tokens = .ok (operands, rest)) :
    rest.length < tokens.length := by
  fun_induction readMembers leaf tokens generalizing operands with
  | case1 => cases read; simp
  | case2 => cases read
  | case3 token tail operand known inductionHypothesis =>
      cases tailRead : readMembers leaf tail with
      | error fault => rw [tailRead] at read; cases read
      | ok pair =>
          rw [tailRead] at read
          cases read
          have shorter := inductionHypothesis tailRead
          simp only [List.length_cons]
          omega
  | case4 => cases read
  | case5 => cases read

theorem readCandidates_length {leaf tokens rest : List Token} {operand : Operand}
    (read : readCandidates leaf tokens = .ok (operand, rest)) :
    rest.length < tokens.length := by
  unfold readCandidates at read
  split at read
  · next tail =>
      cases firstRead : readOperand leaf tail with
      | error fault => rw [firstRead] at read; cases read
      | ok first =>
          rw [firstRead] at read
          cases othersRead : readMembers leaf first.2 with
          | error fault =>
              simp only [bind, Except.bind, othersRead] at read
              cases read
          | ok others =>
              simp only [bind, Except.bind, othersRead] at read
              cases read
              have firstShorter := readOperand_length firstRead
              have shorter := readMembers_length othersRead
              simp only [List.length_cons]
              omega
  · exact readOperand_length read

theorem readComparison_length {leaf tokens rest : List Token} {operator : Operator}
    {operand : Option Operand}
    (read : readComparison leaf tokens = .ok (operator, operand, rest)) :
    rest.length < tokens.length := by
  have single {tail : List Token} {made : Operator}
      (read : (do
        let (operand, rest) ← readOperand leaf tail
        return (made, some operand, rest) : Except QueryFault _) =
          .ok (operator, operand, rest)) : rest.length < tail.length := by
    cases tailRead : readOperand leaf tail with
    | error fault => rw [tailRead] at read; cases read
    | ok pair => rw [tailRead] at read; cases read; exact readOperand_length tailRead
  have several {tail : List Token} {made : Operator}
      (read : (do
        let (operand, rest) ← readCandidates leaf tail
        return (made, some operand, rest) : Except QueryFault _) =
          .ok (operator, operand, rest)) : rest.length < tail.length := by
    cases tailRead : readCandidates leaf tail with
    | error fault => rw [tailRead] at read; cases read
    | ok pair => rw [tailRead] at read; cases read; exact readCandidates_length tailRead
  unfold readComparison at read
  split at read
  · exact Nat.lt_succ_of_lt (single read)
  · exact Nat.lt_succ_of_lt (single read)
  · exact Nat.lt_succ_of_lt (several read)
  · have shorter := several read
    simp only [List.length_cons]
    omega
  all_goals cases read <;> simp only [List.length_cons] <;> omega

theorem readPredicate_length {tokens rest : List Token} {predicate : Predicate}
    (read : readPredicate tokens = .ok (predicate, rest)) : rest.length < tokens.length := by
  unfold readPredicate at read
  split at read
  · next field tail =>
      cases tailRead : readComparison (.identifier field :: tail) tail with
      | error fault => rw [tailRead] at read; cases read
      | ok found =>
          obtain ⟨operator, operand, after⟩ := found
          simp only [bind, Except.bind, tailRead] at read
          split at read
          · cases read
            exact Nat.lt_succ_of_lt (readComparison_length tailRead)
          · cases read
  · split at read <;> cases read

def readLeaf (tokens : List Token) : Except QueryFault (Reading (Tree Predicate) tokens) :=
  match read : readPredicate tokens with
  | .error fault => .error fault
  | .ok (predicate, rest) => .ok ⟨.leaf predicate, rest, readPredicate_length read⟩

mutual

/-- Terms joined by `AND` and `OR`, as many as there are. -/
def readChain (tokens : List Token) : Except QueryFault (Reading Condition tokens) :=
  match readTerm tokens with
  | .error fault => .error fault
  | .ok first =>
      match follows : first.rest with
      | .join join :: rest =>
          have shorter : rest.length < tokens.length := by
            have := first.shorter
            rw [follows, List.length_cons] at this
            omega
          match readChain rest with
          | .error fault => .error fault
          | .ok others =>
              .ok ⟨.link first.value join others.value, others.rest,
                Nat.lt_trans others.shorter shorter⟩
      | _ => .ok ⟨.single first.value, first.rest, first.shorter⟩
termination_by 2 * tokens.length + 1

def readTerm (tokens : List Token) : Except QueryFault (Reading (Tree Predicate) tokens) :=
  match tokens with
  | .openParen :: rest =>
      if rest.head? = some .closeParen then .error (.badSyntax .emptyGroup)
      else
        match readChain rest with
        | .error fault => .error fault
        | .ok inner =>
            match follows : inner.rest with
            | .closeParen :: after =>
                .ok ⟨.group inner.value, after, by
                  have := inner.shorter
                  rw [follows] at this
                  simp only [List.length_cons] at *
                  omega⟩
            | [] => .error (.badSyntax .unclosedGroup)
            | token :: _ => .error (.badSyntax (.unexpectedInGroup token))
  | tokens => readLeaf tokens
termination_by 2 * tokens.length

end

def ofTokens (tokens : List Token) : Except QueryFault Condition :=
  match readChain tokens with
  | .error fault => .error fault
  | .ok read =>
      match read.rest with
      | [] => .ok read.value
      | .closeParen :: _ => .error (.badSyntax .strayCloseParen)
      | token :: _ => .error (.badSyntax (.unexpected (some token)))

/-- Reads a text that is a condition, with blank characters around it. -/
def parse (text : String) : Except QueryFault Condition :=
  match Text.trim text.toList with
  | [] => .error (.badSyntax .emptyExpression)
  | trimmed =>
      match Lexer.scan trimmed with
      | .error fault => .error (.badSyntax fault)
      | .ok tokens => ofTokens tokens

end DocQuery.Condition
