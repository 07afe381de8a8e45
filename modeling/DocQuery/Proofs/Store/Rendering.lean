import DocQuery.Attribute.Plain
import DocQuery.Proofs.Condition.Formula
import DocQuery.Proofs.Expression.Reading
import DocQuery.Store.Names

/-!
# What the texts of clauses and formulas denote

A text denotes a truth value with some strength when it spells tokens that are read, with this
strength, as an expression of this value. The text of a clause spells the tokens of its test,
which are read as a factor. A group is a factor too, because it has parentheses unless its one
member is a factor already. From this the value of a formula's text follows run by run: it is
the value of the formula.
-/

namespace DocQuery

open Expression

namespace Expression

/-- The text is read, with this strength, as an expression with this truth value. -/
def Denotes (tables : Tables) (truth : Assignment) (strength : Strength) (value : Bool)
    (text : String) : Prop :=
  ∃ tokens expression, Spells tables text.toList tokens ∧ Reads strength tokens expression ∧
    expression.holds truth = value

/-- The truth value of a text that may be absent, which is that of no condition at all. -/
def value? (tables : Tables) (truth : Assignment) : Option String → Option Bool
  | none => some true
  | some text => (ofText? tables text).map (Expression.holds truth)

namespace Denotes

variable {tables : Tables} {truth : Assignment}

theorem conjunction_of_factor {value : Bool} {text : String}
    (denotes : Denotes tables truth .factor value text) :
    Denotes tables truth .conjunction value text := by
  obtain ⟨tokens, expression, spells, reads, holds⟩ := denotes
  exact ⟨tokens, expression, spells, reads.conjunction_of_factor, holds⟩

theorem disjunction_of_conjunction {value : Bool} {text : String}
    (denotes : Denotes tables truth .conjunction value text) :
    Denotes tables truth .disjunction value text := by
  obtain ⟨tokens, expression, spells, reads, holds⟩ := denotes
  exact ⟨tokens, expression, spells, reads.disjunction_of_conjunction, holds⟩

theorem disjunction_of_factor {value : Bool} {text : String}
    (denotes : Denotes tables truth .factor value text) :
    Denotes tables truth .disjunction value text :=
  denotes.conjunction_of_factor.disjunction_of_conjunction

theorem parenthesized {value : Bool} {text : String}
    (denotes : Denotes tables truth .disjunction value text) :
    Denotes tables truth .factor value ("(" ++ text ++ ")") := by
  obtain ⟨tokens, expression, spells, reads, holds⟩ := denotes
  refine ⟨.openParen :: tokens ++ [.closeParen], expression, ?_, reads.parenthesized, holds⟩
  simpa using (spells.append Spells.nil.closeParen (by simp)).openParen

theorem and {first others : Bool} {left right : String}
    (leftDenotes : Denotes tables truth .factor first left)
    (rightDenotes : Denotes tables truth .conjunction others right) :
    Denotes tables truth .conjunction (first && others) (left ++ " AND " ++ right) := by
  obtain ⟨leftTokens, leftExpression, leftSpells, leftReads, rfl⟩ := leftDenotes
  obtain ⟨rightTokens, rightExpression, rightSpells, rightReads, rfl⟩ := rightDenotes
  refine ⟨_, _, ?_, leftReads.and rightReads, rfl⟩
  have joined := (rightSpells.space.keyword .and (by simp)).space
  simpa [Keyword.text] using leftSpells.append joined (by simp)

theorem or {first others : Bool} {left right : String}
    (leftDenotes : Denotes tables truth .conjunction first left)
    (rightDenotes : Denotes tables truth .disjunction others right) :
    Denotes tables truth .disjunction (first || others) (left ++ " OR " ++ right) := by
  obtain ⟨leftTokens, leftExpression, leftSpells, leftReads, rfl⟩ := leftDenotes
  obtain ⟨rightTokens, rightExpression, rightSpells, rightReads, rfl⟩ := rightDenotes
  refine ⟨_, _, ?_, leftReads.or rightReads, rfl⟩
  have joined := (rightSpells.space.keyword .or (by simp)).space
  simpa [Keyword.text] using leftSpells.append joined (by simp)

theorem all {values : List Bool} {texts : List String} (nonempty : texts ≠ [])
    (denote : List.Forall₂ (Denotes tables truth .factor) values texts) :
    Denotes tables truth .conjunction (values.all id) (String.intercalate " AND " texts) := by
  induction denote with
  | nil =>
      exact absurd rfl nonempty
  | @cons value text others otherTexts first rest inductionHypothesis =>
      cases rest with
      | nil =>
          simpa using first.conjunction_of_factor
      | cons second later =>
          rw [String.intercalate_cons_cons]
          simpa using first.and (inductionHypothesis (by simp))

theorem any {values : List Bool} {texts : List String} (nonempty : texts ≠ [])
    (denote : List.Forall₂ (Denotes tables truth .factor) values texts) :
    Denotes tables truth .disjunction (values.any id) (String.intercalate " OR " texts) := by
  induction denote with
  | nil =>
      exact absurd rfl nonempty
  | @cons value text others otherTexts first rest inductionHypothesis =>
      cases rest with
      | nil =>
          simpa using first.disjunction_of_factor
      | cons second later =>
          rw [String.intercalate_cons_cons]
          simpa using first.conjunction_of_factor.or (inductionHypothesis (by simp))

theorem value?_eq {value : Bool} {text : String}
    (denotes : Denotes tables truth .disjunction value text) :
    value? tables truth (some text) = some value := by
  obtain ⟨tokens, expression, spells, reads, rfl⟩ := denotes
  have scanned := spells [] detached_nil
  simp only [List.append_nil, scan_nil, Option.map_some] at scanned
  simp [value?, ofText?, scanned, reads.ofTokens?_eq]

end Denotes

end Expression

namespace Check

variable {α β : Type}

/-- Whether there is an operand wherever a list of them is asked for. -/
def Proper : Check α → Prop
  | .within operands | .notWithin operands => operands ≠ []
  | _ => True

/-- Two checks of one kind with related operands. -/
inductive Corresponds (Related : α → β → Prop) : Check α → Check β → Prop
  | compare (comparator : Comparator) {operand : α} {image : β} :
      Related operand image →
      Corresponds Related (.compare comparator operand) (.compare comparator image)
  | within {operands : List α} {images : List β} :
      List.Forall₂ Related operands images →
      Corresponds Related (.within operands) (.within images)
  | notWithin {operands : List α} {images : List β} :
      List.Forall₂ Related operands images →
      Corresponds Related (.notWithin operands) (.notWithin images)
  | beginsWith {operand : α} {image : β} :
      Related operand image →
      Corresponds Related (.beginsWith operand) (.beginsWith image)
  | contains {operand : α} {image : β} :
      Related operand image →
      Corresponds Related (.contains operand) (.contains image)
  | present : Corresponds Related .present .present
  | absent : Corresponds Related .absent .absent

theorem Corresponds.imp {Related Image : α → β → Prop} {check : Check α} {image : Check β}
    (corresponds : Corresponds Related check image)
    (respects : ∀ operand image, Related operand image → Image operand image) :
    Corresponds Image check image := by
  cases corresponds with
  | compare comparator related =>
      exact .compare comparator (respects _ _ related)
  | within related =>
      exact .within (related.imp respects)
  | notWithin related =>
      exact .notWithin (related.imp respects)
  | beginsWith related =>
      exact .beginsWith (respects _ _ related)
  | contains related =>
      exact .contains (respects _ _ related)
  | present =>
      exact .present
  | absent =>
      exact .absent

/-- Whether a check of values is true of a field. -/
def holds (truth : Comparison → Bool) : Check Json → Bool
  | .compare comparator value => truth (.compare comparator (.ofJson value))
  | .within values => truth (.within (values.map .ofJson))
  | .notWithin values => !truth (.within (values.map .ofJson))
  | .beginsWith value => truth (.beginsWith (.ofJson value))
  | .contains value => truth (.contains (.ofJson value))
  | .present => truth .present
  | .absent => !truth .present

end Check

def StoreTest.holds (truth : Assignment) (test : StoreTest) : Bool :=
  test.check.holds (truth test.field)

namespace StoreTest

/-- The tokens of a call that takes a path and a value. -/
def callTokens (keyword : Keyword) (path : List Expression.Token) (value : Attribute) :
    List Expression.Token :=
  .keyword keyword :: .openParen :: (path ++ [.comma, .value value, .closeParen])

def presenceTokens (keyword : Keyword) (path : List Expression.Token) : List Expression.Token :=
  .keyword keyword :: .openParen :: (path ++ [.closeParen])

def membershipTokens (path : List Expression.Token) (values : List Attribute) :
    List Expression.Token :=
  path ++ .keyword .isIn :: .openParen :: (valueTokens values ++ [.closeParen])

/-- The tokens of a test whose attribute is spelled by those of `path`. -/
def tokensAt (path : List Expression.Token) (test : StoreTest) : List Expression.Token :=
  match test.check with
  | .compare comparator value => path ++ [.comparator comparator, .value (.ofJson value)]
  | .within values => membershipTokens path (values.map .ofJson)
  | .notWithin values =>
      .keyword .not :: .openParen :: membershipTokens path (values.map .ofJson) ++ [.closeParen]
  | .beginsWith value => callTokens .beginsWith path (.ofJson value)
  | .contains value => callTokens .contains path (.ofJson value)
  | .present => presenceTokens .attributeExists path
  | .absent => presenceTokens .attributeNotExists path

/-- The tokens of a test in an expression, where points divide the name of the attribute. -/
def tokens (test : StoreTest) : List Expression.Token :=
  test.tokensAt (pathTokens (Text.split '.' test.field))

/-- The tokens of a test whose attribute has an alias of its own. -/
def aliasedTokens (test : StoreTest) : List Expression.Token :=
  test.tokensAt [.name test.field]

/-- The path stands in one place of a test, and all dots are in the path. -/
theorem exists_tokensAt_eq (test : StoreTest) :
    ∃ before behind, .dot ∉ before ∧ .dot ∉ behind ∧
      ∀ path, test.tokensAt path = before ++ (path ++ behind) := by
  unfold tokensAt
  cases test.check with
  | compare comparator value =>
      exact ⟨[], _, by simp, by simp, fun _ => rfl⟩
  | within values =>
      exact ⟨[], _, by simp, by simp [dot_not_mem_valueTokens], fun _ => rfl⟩
  | notWithin values =>
      refine ⟨[.keyword .not, .openParen], .keyword .isIn :: .openParen ::
        (valueTokens (values.map .ofJson) ++ [.closeParen, .closeParen]), by simp,
        by simp [dot_not_mem_valueTokens], fun path => ?_⟩
      simp [membershipTokens]
  | beginsWith value =>
      exact ⟨[.keyword .beginsWith, .openParen], _, by simp, by simp, fun _ => rfl⟩
  | contains value =>
      exact ⟨[.keyword .contains, .openParen], _, by simp, by simp, fun _ => rfl⟩
  | present =>
      exact ⟨[.keyword .attributeExists, .openParen], _, by simp, by simp, fun _ => rfl⟩
  | absent =>
      exact ⟨[.keyword .attributeNotExists, .openParen], _, by simp, by simp, fun _ => rfl⟩

theorem dot_mem_tokensAt {path : List Expression.Token} {test : StoreTest} :
    .dot ∈ test.tokensAt path ↔ .dot ∈ path := by
  obtain ⟨before, behind, noneBefore, noneBehind, placed⟩ := test.exists_tokensAt_eq
  simp [placed, noneBefore, noneBehind]

theorem dot_mem_tokens {test : StoreTest} : .dot ∈ test.tokens ↔ '.' ∈ test.field.toList := by
  rw [tokens, dot_mem_tokensAt, dot_mem_pathTokens, Text.one_lt_length_split_point]

theorem dot_not_mem_aliasedTokens (test : StoreTest) : .dot ∉ test.aliasedTokens := by
  rw [aliasedTokens, dot_mem_tokensAt]
  simp

theorem name_mem_aliasedTokens (test : StoreTest) : .name test.field ∈ test.aliasedTokens := by
  obtain ⟨before, behind, _, _, placed⟩ := test.exists_tokensAt_eq
  simp [aliasedTokens, placed]

theorem tokens_of_not_mem {test : StoreTest} (whole : '.' ∉ test.field.toList) :
    test.tokens = test.aliasedTokens := by
  rw [tokens, Text.split_of_not_mem whole, aliasedTokens, pathTokens]

variable {segments : List String}

theorem reads_call
    (keyword : Keyword) (comparison : Attribute → Comparison) (value : Attribute)
    (nonempty : segments ≠ [])
    (reads : ∀ rest, readComparison (.keyword keyword :: .openParen :: rest) =
      (readArguments rest).bind fun read =>
        some (.atom read.1 (comparison read.2.1), read.2.2))
    (different : keyword ≠ .not) :
    Reads .factor (callTokens keyword (pathTokens segments) value)
      (.atom (String.intercalate "." segments) (comparison value)) := by
  refine Reads.comparison ⟨_, rfl, by simpa using different, by simp⟩ ?_
  intro rest
  have read := readField_pathTokens nonempty
    (.comma :: .value value :: .closeParen :: rest) (by simp)
  simp [callTokens, reads, readArguments, read]

theorem reads_presence
    (keyword : Keyword) (expression : String → Expression) (nonempty : segments ≠ [])
    (reads : ∀ rest, readComparison (.keyword keyword :: .openParen :: rest) =
      (readArgument rest).bind fun read => some (expression read.1, read.2))
    (different : keyword ≠ .not) :
    Reads .factor (presenceTokens keyword (pathTokens segments))
      (expression (String.intercalate "." segments)) := by
  refine Reads.comparison ⟨_, rfl, by simpa using different, by simp⟩ ?_
  intro rest
  have read := readField_pathTokens nonempty (.closeParen :: rest) (by simp)
  simp [presenceTokens, reads, readArgument, read]

theorem reads_compare (comparator : Comparator) (value : Attribute) (nonempty : segments ≠ []) :
    Reads .factor (pathTokens segments ++ [.comparator comparator, .value value])
      (.atom (String.intercalate "." segments) (.compare comparator value)) := by
  obtain ⟨segment, first⟩ := head?_pathTokens nonempty
  refine Reads.comparison ⟨.name segment, by simp [first], by simp⟩ ?_
  intro rest
  rw [List.append_assoc, readComparison_pathTokens nonempty _ (by simp)]
  rfl

theorem reads_membership {values : List Attribute} (nonempty : segments ≠ [])
    (proper : values ≠ []) :
    Reads .factor (membershipTokens (pathTokens segments) values)
      (.atom (String.intercalate "." segments) (.within values)) := by
  obtain ⟨segment, first⟩ := head?_pathTokens nonempty
  refine Reads.comparison ⟨.name segment, by simp [membershipTokens, first], by simp⟩ ?_
  intro rest
  rw [membershipTokens, List.append_assoc, readComparison_pathTokens nonempty _ (by simp)]
  simp [readInfix, readValues_valueTokens, proper]

/-- The tokens of a test are read as a factor that says what the test does. -/
theorem exists_reads (test : StoreTest) (truth : Assignment) (proper : test.check.Proper) :
    ∃ expression, Reads .factor test.tokens expression ∧
      expression.holds truth = test.holds truth := by
  have nonempty := Text.split_ne_nil '.' test.field
  have path := Text.intercalate_split_point test.field
  obtain ⟨field, parameter, check⟩ := test
  simp only [StoreTest.holds] at *
  cases check with
  | compare comparator value =>
      exact ⟨_, reads_compare comparator _ nonempty, by rw [path]; rfl⟩
  | within values =>
      have listed : values.map Attribute.ofJson ≠ [] := List.map_eq_nil_iff.not.mpr proper
      exact ⟨_, reads_membership nonempty listed, by rw [path]; rfl⟩
  | notWithin values =>
      have listed : values.map Attribute.ofJson ≠ [] := List.map_eq_nil_iff.not.mpr proper
      have inside := (reads_membership nonempty listed).conjunction_of_factor
      exact ⟨_, inside.disjunction_of_conjunction.parenthesized.not, by rw [path]; rfl⟩
  | beginsWith value =>
      exact ⟨_, reads_call .beginsWith .beginsWith _ nonempty
        (fun rest => by simp [readComparison]) (by decide), by rw [path]; rfl⟩
  | contains value =>
      exact ⟨_, reads_call .contains .contains _ nonempty
        (fun rest => by simp [readComparison]) (by decide), by rw [path]; rfl⟩
  | present =>
      exact ⟨_, reads_presence .attributeExists (.atom · .present) nonempty
        (fun rest => by simp [readComparison]) (by decide), by rw [path]; rfl⟩
  | absent =>
      exact ⟨_, reads_presence .attributeNotExists (.not <| .atom · .present) nonempty
        (fun rest => by simp [readComparison]) (by decide), by rw [path]; rfl⟩

end StoreTest

namespace StoreClause

variable {tables : Tables}

/-- The path of the clause names the field of the test, and its placeholders the operands. -/
structure Words (tables : Tables) (test : StoreTest) (clause : StoreClause) : Prop where
  path : Spells tables clause.path.toList (pathTokens (Text.split '.' test.field))
  check : Check.Corresponds
    (fun json placeholder => Spells tables placeholder.toList [.value (.ofJson json)])
    test.check clause.check

theorem spells_intercalate {values : List Json} {placeholders : List String}
    (spell : List.Forall₂
      (fun json placeholder => Spells tables placeholder.toList [.value (.ofJson json)])
      values placeholders) :
    Spells tables (String.intercalate ", " placeholders).toList
      (valueTokens (values.map .ofJson)) := by
  induction spell with
  | nil =>
      simpa [valueTokens] using Spells.nil
  | @cons value placeholder others otherPlaceholders first rest inductionHypothesis =>
      cases rest with
      | nil =>
          simpa [valueTokens] using first
      | cons second later =>
          rw [String.intercalate_cons_cons]
          simpa [valueTokens] using first.append inductionHypothesis.space.comma (by simp)

theorem spells_call
    {path placeholder : String} {tokens : List Expression.Token} {value : Attribute}
    (keyword : Keyword) (pathSpells : Spells tables path.toList tokens)
    (valueSpells : Spells tables placeholder.toList [.value value]) :
    Spells tables (call keyword.text path placeholder).toList
      (StoreTest.callTokens keyword tokens value) := by
  have arguments := pathSpells.append
    (valueSpells.append Spells.nil.closeParen (by simp)).space.comma (by simp)
  simpa [call, StoreTest.callTokens] using arguments.openParen.keyword keyword (by simp)

theorem spells_presence
    {path function : String} {tokens : List Expression.Token}
    (keyword : Keyword) (spelled : function = keyword.text ++ "(")
    (pathSpells : Spells tables path.toList tokens) :
    Spells tables (function ++ path ++ ")").toList
      (StoreTest.presenceTokens keyword tokens) := by
  subst spelled
  have arguments := pathSpells.append Spells.nil.closeParen (by simp)
  simpa [StoreTest.presenceTokens] using arguments.openParen.keyword keyword (by simp)

theorem spells_membership
    {path : String} {placeholders : List String} {tokens : List Expression.Token}
    {values : List Json}
    (pathSpells : Spells tables path.toList tokens)
    (valuesSpell : List.Forall₂
      (fun json placeholder => Spells tables placeholder.toList [.value (.ofJson json)])
      values placeholders) :
    Spells tables (membership path placeholders).toList
      (StoreTest.membershipTokens tokens (values.map .ofJson)) := by
  have list := ((spells_intercalate valuesSpell).append Spells.nil.closeParen (by simp)).openParen
  have following := (list.space.keyword .isIn (by simp)).space
  simpa [membership, StoreTest.membershipTokens, Keyword.text] using
    pathSpells.append following (by simp)

/-- The text of a clause spells the tokens of its test. -/
theorem spells_text {test : StoreTest} {clause : StoreClause} (words : Words tables test clause) :
    Spells tables clause.text.toList test.tokens := by
  obtain ⟨pathSpells, checkSpells⟩ := words
  obtain ⟨field, parameter, check⟩ := test
  obtain ⟨clausePath, clauseCheck⟩ := clause
  simp only at pathSpells
  cases checkSpells with
  | compare comparator valueSpells =>
      have behind := (valueSpells.comparator comparator).space
      simpa [text, StoreTest.tokens, StoreTest.tokensAt] using pathSpells.append behind (by simp)
  | within valuesSpell =>
      exact spells_membership pathSpells valuesSpell
  | notWithin valuesSpell =>
      have list := spells_membership pathSpells valuesSpell
      have grouped := (list.append Spells.nil.closeParen (by simp)).openParen.space
      simpa [text, StoreTest.tokens, StoreTest.tokensAt, Keyword.text] using
        grouped.keyword .not (by simp)
  | beginsWith valueSpells =>
      exact spells_call .beginsWith pathSpells valueSpells
  | contains valueSpells =>
      exact spells_call .contains pathSpells valueSpells
  | present =>
      exact spells_presence .attributeExists (by decide) pathSpells
  | absent =>
      exact spells_presence .attributeNotExists (by decide) pathSpells

/-- The text of a clause denotes what its test says. -/
theorem denotes_text
    {truth : Assignment} {test : StoreTest} {clause : StoreClause}
    (words : Words tables test clause) (proper : test.check.Proper) :
    Denotes tables truth .factor (test.holds truth) clause.text := by
  obtain ⟨expression, reads, holds⟩ := test.exists_reads truth proper
  exact ⟨test.tokens, expression, spells_text words, reads, holds⟩

end StoreClause

namespace StoreExpression

variable {α : Type} {tables : Tables} {truth : Assignment}

/-- A run among others, which has parentheses if it has several members. -/
theorem denotes_run
    {values : List Bool} {run : List String} (nonempty : run ≠ [])
    (denote : List.Forall₂ (Denotes tables truth .factor) values run) :
    Denotes tables truth .factor (values.any id)
      (if 1 < run.length then "(" ++ String.intercalate " OR " run ++ ")"
        else String.intercalate " OR " run) := by
  split
  · exact (Denotes.any nonempty denote).parenthesized
  · next few =>
      cases denote with
      | nil =>
          exact absurd rfl nonempty
      | cons first rest =>
          cases rest with
          | nil =>
              simpa using first
          | cons second others =>
              simp at few

theorem denote_runs
    {values : List (List Bool)} {runs : List (List String)}
    (nonempty : ∀ run ∈ runs, run ≠ [])
    (denote : List.Forall₂ (List.Forall₂ (Denotes tables truth .factor)) values runs) :
    List.Forall₂ (Denotes tables truth .factor) (values.map fun run => run.any id)
      (runs.map fun run =>
        if 1 < run.length then "(" ++ String.intercalate " OR " run ++ ")"
          else String.intercalate " OR " run) := by
  induction denote with
  | nil =>
      exact .nil
  | cons first _ inductionHypothesis =>
      refine .cons (denotes_run (nonempty _ (by simp)) first) ?_
      exact inductionHypothesis fun run member => nonempty run (by simp [member])

/-- The text of a chain of factors denotes the value of the chain. -/
theorem denotes_chainText
    {values : Chain Bool} {members : Chain String}
    (denote : Chain.Corresponds (Denotes tables truth .factor) values members) :
    Denotes tables truth .disjunction values.holds (chainText members) := by
  have runsDenote := denote.runs
  have nonempty : ∀ run ∈ members.runs, run ≠ [] := fun run => Chain.ne_nil_of_mem_runs
  unfold chainText Chain.holds
  generalize values.runs = valueRuns at runsDenote
  generalize memberRuns : members.runs = runs at runsDenote nonempty
  cases runsDenote with
  | nil =>
      exact absurd memberRuns members.runs_ne_nil
  | @cons valueRun run otherValues otherRuns first rest =>
      cases rest with
      | nil =>
          -- a run alone needs no parentheses
          simpa using Denotes.any (nonempty run (by simp)) first
      | @cons secondValues secondRun laterValues laterRuns second later =>
          have together := Denotes.all (by simp)
            (denote_runs nonempty (.cons first (.cons second later)))
          simpa [List.all_map, Function.comp_def] using together.disjunction_of_conjunction

theorem denotes_groupText
    {values : Chain Bool} {members : Chain String}
    (denote : Chain.Corresponds (Denotes tables truth .factor) values members) :
    Denotes tables truth .factor values.holds (groupText members) := by
  cases denote with
  | single member =>
      simpa [groupText, chainText, Chain.isSingle, Chain.holds, Chain.runs] using member
  | link join first rest =>
      exact (denotes_chainText (.link join first rest)).parenthesized

theorem denotes_node
    {value : α → Bool} {tree : Tree α} {node : Tree StoreClause}
    (corresponds : Tree.Corresponds
      (fun atom clause => Denotes tables truth .factor (value atom) clause.text) tree node) :
    Denotes tables truth .factor (tree.fold value Chain.holds)
      (node.fold StoreClause.text groupText) := by
  refine Tree.Corresponds.fold (Denotes tables truth .factor) ?_ ?_ corresponds
  · intro atom clause denotes
    exact denotes
  · intro values members denote
    exact denotes_groupText denote

/-- The text of a formula denotes its value, and is a factor if the formula has one member. -/
theorem denotes_text
    {value : α → Bool} {formula : Formula α} {clauses : Formula StoreClause}
    (corresponds : Chain.Corresponds (Tree.Corresponds
      (fun atom clause => Denotes tables truth .factor (value atom) clause.text))
      formula clauses) :
    Denotes tables truth .disjunction (formula.holds value) (text clauses) ∧
      (clauses.isSingle = true →
        Denotes tables truth .factor (formula.holds value) (text clauses)) := by
  have members := corresponds.map (Tree.fold value Chain.holds)
    (Tree.fold StoreClause.text groupText) fun _ _ _ related => denotes_node related
  unfold Formula.holds Formula.fold text
  rw [Tree.foldChain_eq_map, Tree.foldChain_eq_map]
  refine ⟨denotes_chainText members, ?_⟩
  intro single
  cases corresponds with
  | single related =>
      simpa [Chain.map, chainText, Chain.holds, Chain.runs] using denotes_node related
  | link join first rest =>
      simp [Chain.isSingle] at single

theorem denotes_conjunct
    {value : α → Bool} {formula : Formula α} {clauses : Formula StoreClause}
    (corresponds : Chain.Corresponds (Tree.Corresponds
      (fun atom clause => Denotes tables truth .factor (value atom) clause.text))
      formula clauses) :
    Denotes tables truth .factor (formula.holds value)
      (if clauses.isSingle then text clauses else "(" ++ text clauses ++ ")") := by
  have denotes := denotes_text corresponds
  split
  · next single => exact denotes.2 single
  · exact denotes.1.parenthesized

theorem value?_conjunction?
    {value : α → Bool} {formulas : List (Formula α)} {clauses : List (Formula StoreClause)}
    (correspond : List.Forall₂ (Chain.Corresponds (Tree.Corresponds
      (fun atom clause => Denotes tables truth .factor (value atom) clause.text)))
      formulas clauses) :
    value? tables truth (conjunction? clauses) =
      some (formulas.all fun formula => formula.holds value) := by
  have conjuncts := correspond.imp fun _ _ => denotes_conjunct
  cases correspond with
  | nil =>
      rfl
  | cons first rest =>
      cases rest with
      | nil =>
          simpa [conjunction?] using (denotes_text first).1.value?_eq
      | cons second later =>
          have together := Denotes.all (by simp) ((List.forall₂_map_left_iff.mpr
            (List.forall₂_map_right_iff.mpr conjuncts)))
          simpa [conjunction?, List.all_map, Function.comp_def] using
            together.disjunction_of_conjunction.value?_eq

end StoreExpression

end DocQuery
