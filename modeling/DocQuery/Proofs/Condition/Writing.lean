import DocQuery.Proofs.Condition.Parsing
import DocQuery.Proofs.Condition.Scanning

/-!
# Conditions are read back from their texts

The text of a condition spells the tokens of a derivation that denotes it, as soon as this is so
for the text of each of its predicates. Such a text is read as the condition that it was written
for. The main statement is about conditions whose values are parameters: reading takes back what
writing does, with all joins, groups and operators.
-/

namespace DocQuery

open Lexer (Spells Detached)

/-- The text spells the tokens and has no blanks at its ends. -/
structure Writes (text : String) (tokens : List Token) : Prop where
  spells : Spells text.toList tokens
  bare : Text.Bare text.toList

/-- A word that is no keyword in any mixture of cases. -/
structure IsIdentifier (field : String) : Prop where
  word : ∃ c others, field.toList = c :: others ∧ (c.isAlpha = true ∨ c = '_') ∧
    ∀ d ∈ others, d.isAlphanum = true ∨ d = '_' ∨ d = '.'
  noKeyword : String.ofList (field.toList.map Char.toLower) ∉
    ["and", "or", "not", "in", "like", "is", "null", "between"]

/-- Whether a word is an identifier is checked character by character. -/
theorem isIdentifier_iff {field : String} :
    IsIdentifier field ↔
      (field.toList.head?.any fun c => c.isAlpha || c == '_') = true ∧
      (field.toList.tail.all fun d => d.isAlphanum || d == '_' || d == '.') = true ∧
      String.ofList (field.toList.map Char.toLower) ∉
        ["and", "or", "not", "in", "like", "is", "null", "between"] := by
  constructor
  · rintro ⟨⟨c, others, letters, start, kept⟩, noKeyword⟩
    rw [letters] at noKeyword ⊢
    exact ⟨by simpa using start, by simpa [or_assoc] using kept, noKeyword⟩
  · rintro ⟨start, kept, noKeyword⟩
    refine ⟨?_, noKeyword⟩
    cases letters : field.toList with
    | nil =>
        simp [letters] at start
    | cons c others =>
        rw [letters] at start kept
        exact ⟨c, others, rfl, by simpa using start, by simpa [or_assoc] using kept⟩

instance (field : String) : Decidable (IsIdentifier field) :=
  decidable_of_iff _ isIdentifier_iff.symm

theorem IsIdentifier.isPathChar {field : String} (identifier : IsIdentifier field) :
    ∀ c ∈ field.toList, Lexer.isPathChar c = true := by
  obtain ⟨⟨c, others, letters, start, kept⟩, _⟩ := identifier
  have isStart : Lexer.isNameStart c = true := by
    simpa [Lexer.isNameStart] using start
  intro d member
  rw [letters, List.mem_cons] at member
  rcases member with rfl | later
  · exact Lexer.isPathChar_of_isNameStart isStart
  · simpa [Lexer.isPathChar, Lexer.isNameChar, or_assoc] using kept d later

def IsParameterName (name : String) : Prop :=
  name ≠ "" ∧ ∀ c ∈ name.toList, c.isAlphanum = true ∨ c = '_'

instance (name : String) : Decidable (IsParameterName name) :=
  decidable_of_iff (name ≠ "" ∧ (name.toList.all fun c => c.isAlphanum || c == '_') = true)
    (by simp [IsParameterName])

/-- A parameter, or a list of at least one. -/
inductive IsCandidates : Operand → Prop
  | parameter {name : String} :
      IsParameterName name →
      IsCandidates (.parameter name)
  | list {names : List String} :
      names ≠ [] →
      (∀ name ∈ names, IsParameterName name) →
      IsCandidates (.list (names.map .parameter))

/-- What may stand behind an operator if all values are parameters. -/
inductive Parametric : Operator → Option Operand → Prop
  | compare {comparator : Comparator} {name : String} :
      IsParameterName name →
      Parametric (.compare comparator) (some (.parameter name))
  | like {name : String} :
      IsParameterName name →
      Parametric .like (some (.parameter name))
  | isIn {operand : Operand} :
      IsCandidates operand →
      Parametric .isIn (some operand)
  | notIn {operand : Operand} :
      IsCandidates operand →
      Parametric .notIn (some operand)
  | isNull : Parametric .isNull none
  | isNotNull : Parametric .isNotNull none

/-- Every predicate compares an identifier with parameters. -/
def Condition.IsParametric (condition : Condition) : Prop :=
  ∀ predicate ∈ Formula.atoms condition,
    IsIdentifier predicate.field ∧ Parametric predicate.operator predicate.operand

/-- The values of a derivation. -/
def CandidatesDerivation.values : CandidatesDerivation → List ValueDerivation
  | .single value => [value]
  | .list first others => first :: others

def ComparisonDerivation.values : ComparisonDerivation → List ValueDerivation
  | .compare _ value | .like value => [value]
  | .isIn candidates | .notIn candidates => candidates.values
  | .isNull | .isNotNull => []

theorem Operand.texts_eq_map (items : List Operand) : Operand.texts items = items.map text := by
  induction items with
  | nil =>
      rfl
  | cons item rest inductionHypothesis =>
      rw [texts, inductionHypothesis, List.map_cons]

namespace Writes

theorem word {word : String} (start : ∃ c ∈ word.toList.head?, Lexer.isNameStart c = true)
    (kept : ∀ c ∈ word.toList, Lexer.isPathChar c = true) :
    Writes word [Token.ofWord word.toList] := by
  refine ⟨Spells.word start kept, Text.Bare.of_all ?_ ?_⟩
  · rintro empty
    simp [empty] at start
  · intro c member
    exact Lexer.isBlank_of_isPathChar (kept c member)

theorem identifier {field : String} (identifier : IsIdentifier field) :
    Writes field [.identifier field] := by
  have areKept := identifier.isPathChar
  obtain ⟨⟨c, others, letters, start, kept⟩, noKeyword⟩ := identifier
  have isStart : Lexer.isNameStart c = true := by
    simpa [Lexer.isNameStart] using start
  have unknown : Token.keywords.lookup (String.ofList (field.toList.map Char.toLower)) =
      none := by
    rw [List.lookup_eq_none_iff]
    intro entry known
    have spelling : entry.1 ∈ ["and", "or", "not", "in", "like", "is", "null", "between"] :=
      List.mem_map_of_mem (f := Prod.fst) known
    rw [bne_iff_ne]
    rintro same
    exact noKeyword (same ▸ spelling)
  have meant : Token.ofWord field.toList = .identifier field := by
    rw [Token.ofWord, unknown, String.ofList_toList]
  rw [← meant]
  exact word ⟨c, by simp [letters], isStart⟩ areKept

theorem parameter {name : String} (named : IsParameterName name) :
    Writes (parameterText name) [.placeholder name] := by
  obtain ⟨nonempty, kept⟩ := named
  have areKept : ∀ c ∈ name.toList, Lexer.isNameChar c = true := by
    intro c member
    simpa [Lexer.isNameChar] using kept c member
  have letters : (parameterText name).toList = ':' :: name.toList ++ [':'] := by
    simp [parameterText]
  constructor
  · have spelled := Spells.placeholder (by simpa using nonempty) areKept
    rwa [← letters, String.ofList_toList] at spelled
  · rw [letters]
    refine Text.Bare.of_all (by simp) ?_
    intro c member
    rw [List.mem_append, List.mem_cons, List.mem_singleton] at member
    rcases member with (rfl | inside) | rfl
    · decide
    · apply Lexer.isBlank_of_isPathChar
      simp [Lexer.isPathChar, areKept c inside]
    · decide

/-- The members of a list, with commas and blanks between them. -/
theorem spells_members (first : ValueDerivation) (others : List ValueDerivation)
    (written : ∀ value ∈ first :: others, Writes value.operand.text [value.token]) :
    Spells
      ([',', ' '].intercalate ((first :: others).map fun value => value.operand.text.toList))
      (first.token :: ValueDerivation.memberTokens others) := by
  induction others generalizing first with
  | nil =>
      simpa using (written first (by simp)).spells
  | cons next later inductionHypothesis =>
      have laterSpells := inductionHypothesis next fun value member =>
        written value (List.mem_cons_of_mem first member)
      have firstSpells := (written first (by simp)).spells
      exact firstSpells.append laterSpells.space.comma ((Lexer.detached_cons _ _).mpr (by decide))

theorem parenthesized {text : String} {tokens : List Token}
    (spells : Spells text.toList tokens) :
    Writes ("(" ++ text ++ ")") (.openParen :: tokens ++ [.closeParen]) := by
  have letters : ("(" ++ text ++ ")").toList = '(' :: text.toList ++ [')'] := by
    simp
  constructor
  · rw [letters]
    exact (spells.append Spells.nil.closeParen
      ((Lexer.detached_cons _ _).mpr (by decide))).openParen
  · rw [letters]
    refine ⟨⟨'(', rfl, by decide⟩, ⟨')', ?_, by decide⟩⟩
    rw [List.getLast?_append]
    rfl

/-- Candidates are written like their values, with parentheses around a list. -/
theorem candidates (candidates : CandidatesDerivation)
    (written : ∀ value ∈ candidates.values, Writes value.operand.text [value.token]) :
    Writes candidates.operand.text candidates.tokens := by
  cases candidates with
  | single value =>
      exact written value (List.mem_singleton_self value)
  | list first others =>
      have inside := spells_members first others written
      have letters : (String.intercalate ", "
          ((first :: others).map fun value => value.operand.text)).toList =
            [',', ' '].intercalate
              ((first :: others).map fun value => value.operand.text.toList) := by
        simp [String.toList_intercalate, Function.comp_def]
      rw [← letters] at inside
      have whole := parenthesized inside
      simpa [CandidatesDerivation.operand, CandidatesDerivation.tokens, Operand.text,
        Operand.texts_eq_map, Function.comp_def] using whole

theorem spaced {first second : String} {firstTokens secondTokens : List Token}
    (firstWrites : Writes first firstTokens) (secondWrites : Writes second secondTokens) :
    Writes (first ++ " " ++ second) (firstTokens ++ secondTokens) := by
  have letters : (first ++ " " ++ second).toList =
      first.toList ++ [' '] ++ second.toList := by
    simp
  constructor
  · rw [letters, List.append_assoc]
    exact firstWrites.spells.append secondWrites.spells.space
      ((Lexer.detached_cons _ _).mpr (by decide))
  · rw [letters]
    exact firstWrites.bare.append [' '] secondWrites.bare

/-- A word with a meaning of its own. -/
theorem keyword {spelling : String} {token : Token}
    (isWord : (spelling.toList.head?.any Lexer.isNameStart &&
      spelling.toList.all Lexer.isPathChar) = true)
    (meant : Token.ofWord spelling.toList = token) : Writes spelling [token] := by
  obtain ⟨start, kept⟩ := Bool.and_eq_true_iff.mp isWord
  rw [← meant]
  refine word ?_ (List.all_eq_true.mp kept)
  simpa [Option.any_eq_true] using start

theorem join (join : Join) : Writes join.text [.join join] := by
  cases join with
  | and =>
      exact keyword (by decide) (by decide)
  | or =>
      exact keyword (by decide) (by decide)

theorem not : Writes "NOT" [.not] :=
  keyword (by decide) (by decide)

theorem isIn : Writes "IN" [.isIn] :=
  keyword (by decide) (by decide)

theorem like : Writes "LIKE" [.like] :=
  keyword (by decide) (by decide)

theorem is : Writes "IS" [.is] :=
  keyword (by decide) (by decide)

theorem null : Writes "NULL" [.null] :=
  keyword (by decide) (by decide)

theorem comparator (comparator : Comparator) :
    Writes comparator.text [.comparator comparator] := by
  have visible : (comparator.text.toList.all fun c => !Text.isBlank c) = true := by
    cases comparator <;> decide
  refine ⟨Spells.comparator comparator, Text.Bare.of_all ?_ (by simpa using visible)⟩
  cases comparator <;> decide

/-- A predicate is a field, an operator and a value with blanks between them. -/
theorem predicate (derivation : PredicateDerivation) (field : IsIdentifier derivation.field)
    (written : ∀ value ∈ derivation.comparison.values, Writes value.operand.text [value.token]) :
    Writes derivation.predicate.text derivation.tokens := by
  obtain ⟨name, comparison⟩ := derivation
  have subject := identifier field
  cases comparison with
  | compare comparator value =>
      have valueWrites := written value (List.mem_singleton_self value)
      exact (subject.spaced (Writes.comparator comparator)).spaced valueWrites
  | like value =>
      have valueWrites := written value (List.mem_singleton_self value)
      exact (subject.spaced like).spaced valueWrites
  | isIn candidates =>
      exact (subject.spaced isIn).spaced (Writes.candidates candidates written)
  | notIn candidates =>
      exact (subject.spaced (not.spaced isIn)).spaced (Writes.candidates candidates written)
  | isNull =>
      exact subject.spaced (is.spaced null)
  | isNotNull =>
      exact subject.spaced ((is.spaced not).spaced null)

open ConditionDerivation (joinTokens groupTokens termTokens)

theorem chain {members : Chain String} {images : Chain (List Token)}
    (corresponds : Chain.Corresponds Writes members images) :
    Writes members.text (joinTokens images) := by
  induction corresponds with
  | single written =>
      exact written
  | link join written _ inductionHypothesis =>
      have joined := (written.spaced (Writes.join join)).spaced inductionHypothesis
      rwa [List.append_assoc] at joined

theorem group {members : Chain String} {images : Chain (List Token)}
    (corresponds : Chain.Corresponds Writes members images) :
    Writes (Condition.groupText members) (groupTokens images) :=
  parenthesized (chain corresponds).spells

/-- A condition whose predicates are written with the tokens of derivations is written with the
tokens of the derivation that puts these together. -/
theorem condition {condition : Condition} {derivation : ConditionDerivation}
    (corresponds : Chain.Corresponds
      (Tree.Corresponds fun predicate image => Writes predicate.text image.tokens)
      condition derivation) :
    Writes condition.text derivation.tokens := by
  have texts : Chain.Corresponds Writes
      (condition.map Condition.nodeText) (derivation.map termTokens) := by
    apply corresponds.map
    intro node _ term related
    exact related.fold Writes (fun _ _ written => written) fun _ _ members => group members
  rw [Condition.text, Tree.foldChain_eq_map]
  exact chain texts

end Writes

namespace Condition

/-- A text that spells the tokens of a derivation is read as the condition denoted. -/
theorem parse_of_writes {text : String} {derivation : ConditionDerivation}
    (writes : Writes text derivation.tokens) : parse text = .ok derivation.condition := by
  have tokensRead : ofTokens derivation.tokens = .ok derivation.condition :=
    ofTokens_eq_ok_iff.mpr ⟨derivation, rfl, rfl⟩
  have trimmed := writes.bare.trim_eq
  unfold parse
  rw [trimmed]
  split
  · next empty =>
      exact absurd empty writes.bare.ne_nil
  · rw [writes.spells.scan_all]
    exact tokensRead

/-- Reading takes back what writing does, if every predicate has a derivation whose tokens its
text spells. -/
theorem parse_text {condition : Condition}
    (written : ∀ predicate ∈ Formula.atoms condition, ∃ derivation : PredicateDerivation,
      predicate = derivation.predicate ∧ Writes predicate.text derivation.tokens) :
    parse condition.text = .ok condition := by
  obtain ⟨derivation, corresponds⟩ := Formula.exists_corresponds written
  have denotes : condition = ConditionDerivation.condition derivation := by
    apply Chain.Corresponds.eq_map
    refine corresponds.imp fun node _ term related => ?_
    exact (related.imp fun _ _ both => both.1).eq_fold
  have writes : Writes condition.text (ConditionDerivation.tokens derivation) := by
    apply Writes.condition
    refine corresponds.imp fun node _ term related => ?_
    exact related.imp fun _ _ both => both.2
  rw [parse_of_writes writes, ← denotes]

theorem exists_candidates {operand : Operand} (listed : IsCandidates operand) :
    ∃ candidates : CandidatesDerivation, operand = candidates.operand ∧
      ∀ value ∈ candidates.values, Writes value.operand.text [value.token] := by
  cases listed with
  | @parameter name named =>
      refine ⟨.single (.placeholder name), rfl, ?_⟩
      intro value member
      obtain rfl := List.mem_singleton.mp member
      exact Writes.parameter named
  | @list names nonempty named =>
      cases names with
      | nil =>
          exact absurd rfl nonempty
      | cons first others =>
          refine ⟨.list (.placeholder first) (others.map .placeholder), ?_, ?_⟩
          · simp [CandidatesDerivation.operand, ValueDerivation.operand, Function.comp_def]
          · intro value member
            rw [CandidatesDerivation.values, ← List.map_cons, List.mem_map] at member
            obtain ⟨name, isName, rfl⟩ := member
            exact Writes.parameter (named name isName)

/-- A predicate about parameters has a derivation. -/
theorem exists_derivation {predicate : Predicate} (field : IsIdentifier predicate.field)
    (parametric : Parametric predicate.operator predicate.operand) :
    ∃ derivation : PredicateDerivation,
      predicate = derivation.predicate ∧ Writes predicate.text derivation.tokens := by
  obtain ⟨name, operator, operand⟩ := predicate
  have compared : ∃ comparison : ComparisonDerivation,
      operator = comparison.operator ∧ operand = comparison.operand? ∧
        ∀ value ∈ comparison.values, Writes value.operand.text [value.token] := by
    cases parametric with
    | @compare comparator parameterName named =>
        refine ⟨.compare comparator (.placeholder parameterName), rfl, rfl, ?_⟩
        intro value member
        obtain rfl := List.mem_singleton.mp member
        exact Writes.parameter named
    | @like parameterName named =>
        refine ⟨.like (.placeholder parameterName), rfl, rfl, ?_⟩
        intro value member
        obtain rfl := List.mem_singleton.mp member
        exact Writes.parameter named
    | isIn listed =>
        obtain ⟨candidates, rfl, written⟩ := exists_candidates listed
        exact ⟨.isIn candidates, rfl, rfl, written⟩
    | notIn listed =>
        obtain ⟨candidates, rfl, written⟩ := exists_candidates listed
        exact ⟨.notIn candidates, rfl, rfl, written⟩
    | isNull =>
        exact ⟨.isNull, rfl, rfl, by simp [ComparisonDerivation.values]⟩
    | isNotNull =>
        exact ⟨.isNotNull, rfl, rfl, by simp [ComparisonDerivation.values]⟩
  obtain ⟨comparison, rfl, rfl, written⟩ := compared
  exact ⟨⟨name, comparison⟩, rfl, Writes.predicate ⟨name, comparison⟩ field written⟩

/-- A condition about parameters is read back from its text, so no two have one text. -/
theorem parse_text_parametric {condition : Condition} (parametric : condition.IsParametric) :
    parse condition.text = .ok condition ∧
      ∀ other : Condition, other.IsParametric → other.text = condition.text →
        other = condition := by
  have readBack {condition : Condition} (parametric : condition.IsParametric) :
      parse condition.text = .ok condition := by
    apply parse_text
    intro predicate member
    obtain ⟨field, compared⟩ := parametric predicate member
    exact exists_derivation field compared
  refine ⟨readBack parametric, ?_⟩
  intro other otherParametric sameText
  have otherRead := readBack otherParametric
  rw [sameText, readBack parametric, Except.ok.injEq] at otherRead
  exact otherRead.symm

/-- A path behind a group within a group, with every kind of candidates. -/
def nestedCondition : Condition :=
  .link
    (.group
      (.link (.leaf ⟨"state", .notIn, some (.list [.parameter "old", .parameter "2"])⟩) .or
        (.single (.group (.link (.leaf ⟨"tag", .isIn, some (.parameter "tags")⟩) .and
          (.single (.leaf ⟨"between_1", .isNull, none⟩)))))))
    .and
    (.link (.leaf ⟨"user.name", .compare .ge, some (.parameter "from")⟩) .or
      (.single (.leaf ⟨"_note", .like, some (.parameter "_")⟩)))

theorem parse_text_parametric_nested :
    nestedCondition.IsParametric ∧
      parse ("(state NOT IN (:old:, :2:) OR (tag IN :tags: AND between_1 IS NULL)) AND " ++
        "user.name >= :from: OR _note LIKE :_:") = .ok nestedCondition ∧
      ∀ other : Condition, other.IsParametric → other.text = nestedCondition.text →
        other = nestedCondition := by
  have parametric : nestedCondition.IsParametric := by
    have atoms : Formula.atoms nestedCondition =
        [⟨"state", .notIn, some (.list (["old", "2"].map .parameter))⟩,
          ⟨"tag", .isIn, some (.parameter "tags")⟩, ⟨"between_1", .isNull, none⟩,
          ⟨"user.name", .compare .ge, some (.parameter "from")⟩,
          ⟨"_note", .like, some (.parameter "_")⟩] := by
      decide
    have fields : ∀ field ∈ ["state", "tag", "between_1", "user.name", "_note"],
        IsIdentifier field := by
      decide
    have names : ∀ name ∈ ["old", "2", "tags", "from", "_"], IsParameterName name := by
      decide
    intro predicate member
    rw [atoms] at member
    simp only [List.mem_cons, List.not_mem_nil, or_false] at member
    obtain rfl | rfl | rfl | rfl | rfl := member
    · refine ⟨fields _ (by simp), .notIn (.list (by simp) fun name isName => ?_)⟩
      exact names name (List.mem_append_left ["tags", "from", "_"] isName)
    · exact ⟨fields _ (by simp), .isIn (.parameter (names _ (by simp)))⟩
    · exact ⟨fields _ (by simp), .isNull⟩
    · exact ⟨fields _ (by simp), .compare (names _ (by simp))⟩
    · exact ⟨fields _ (by simp), .like (names _ (by simp))⟩
  obtain ⟨readBack, unique⟩ := parse_text_parametric parametric
  have text : nestedCondition.text =
      "(state NOT IN (:old:, :2:) OR (tag IN :tags: AND between_1 IS NULL)) AND " ++
        "user.name >= :from: OR _note LIKE :_:" := by
    decide +kernel
  rw [text] at readBack
  exact ⟨parametric, readBack, unique⟩

end Condition

end DocQuery
