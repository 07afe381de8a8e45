import DocQuery.Proofs.Condition.Writing
import DocQuery.Proofs.Decimal.Text

/-!
# Literals are read back from their texts

A literal that is written in a condition is a string or a number. In the text of a string an
apostrophe has a backslash in front of it, but a backslash has none, although one is expected where
strings are read. A number is read up to a minus, so that it is cut in a negative power of ten.
The main statement says which literals are read back: the strings without backslashes, all
integers, and the binary64 numbers that are zero or not too small.
-/

namespace DocQuery

namespace Lexer

section Inversion

variable {text : List Char} {token : Token} {tokens : List Token}

/-- The first of several tokens, and what the others are cut from. -/
theorem front_of_scan {c : Char} (noGap : isGap c = false)
    (scanned : scan (c :: text) = .ok (token :: tokens)) :
    ∃ rest, front c text = .ok (token, rest) ∧ scan rest = .ok tokens := by
  have taken : next? (c :: text) = (front c text).map some := by
    rw [next?, List.dropWhile_cons_of_neg (by simp [noGap])]
  rw [scan_eq, taken] at scanned
  cases read : front c text with
  | error fault =>
      rw [read] at scanned
      cases scanned
  | ok pair =>
      rw [read] at scanned
      obtain ⟨others, restScanned, same⟩ := Fallible.map_eq_ok_iff.mp scanned
      obtain ⟨sameToken, sameTokens⟩ := List.cons.inj same
      exact ⟨pair.2, by rw [← sameToken], sameTokens ▸ restScanned⟩

/-- Where no token is left there are only gaps. -/
theorem isGap_of_scan (scanned : scan text = .ok []) : ∀ c ∈ text, isGap c = true := by
  apply List.dropWhile_eq_nil_iff.mp
  cases left : text.dropWhile isGap with
  | nil =>
      rfl
  | cons c rest =>
      rw [scan_eq, next?, left] at scanned
      cases read : front c rest with
      | error fault =>
          simp only [read] at scanned
          cases scanned
      | ok pair =>
          simp only [read] at scanned
          obtain ⟨others, _, same⟩ := Fallible.map_eq_ok_iff.mp scanned
          cases same

end Inversion

section Strings

/-- The characters of a string as they are written. -/
def quotedBody (text : List Char) : List Char :=
  text.flatMap fun c => if c = '\'' then ['\\', '\''] else [c]

theorem quotedBody_cons {c : Char} (different : c ≠ '\'') (text : List Char) :
    quotedBody (c :: text) = c :: quotedBody text := by
  simp [quotedBody, different]

theorem quotedBody_quote (text : List Char) :
    quotedBody ('\'' :: text) = '\\' :: '\'' :: quotedBody text := by
  simp [quotedBody]

theorem stringBody?_ordinary {c : Char} (noBackslash : c ≠ '\\') (noQuote : c ≠ '\'')
    (text : List Char) :
    stringBody? '\'' (c :: text) =
      (stringBody? '\'' text).map fun read => (c :: read.1, read.2) := by
  rw [stringBody?_cons noBackslash, if_neg noQuote]

theorem stringBody?_escaped (c : Char) (text : List Char) :
    stringBody? '\'' ('\\' :: c :: text) =
      (stringBody? '\'' text).map fun read => (c :: read.1, read.2) := by
  rw [stringBody?]

theorem stringBody?_quote (text : List Char) :
    stringBody? '\'' ('\'' :: text) = some ([], text) := by
  simp [stringBody?]

/-- A text without backslashes is read back. -/
theorem stringBody?_quotedBody {text : List Char} (plain : '\\' ∉ text) (rest : List Char) :
    stringBody? '\'' (quotedBody text ++ '\'' :: rest) = some (text, rest) := by
  induction text with
  | nil =>
      exact stringBody?_quote rest
  | cons c later inductionHypothesis =>
      have noBackslash : c ≠ '\\' := fun same => plain (same ▸ List.mem_cons_self)
      have laterRead := inductionHypothesis fun member => plain (List.mem_cons_of_mem c member)
      by_cases quote : c = '\''
      · rw [quote, quotedBody_quote, List.cons_append, List.cons_append, stringBody?_escaped,
          laterRead, Option.map_some]
      · rw [quotedBody_cons quote, List.cons_append, stringBody?_ordinary noBackslash quote,
          laterRead, Option.map_some]

/-- A character in front of what is read is read with it. -/
theorem exists_of_map_cons {c : Char} {read : Option (List Char × List Char)}
    {body rest : List Char}
    (mapped : (read.map fun read => (c :: read.1, read.2)) = some (body, rest)) :
    ∃ later, read = some (later, rest) ∧ body = c :: later := by
  obtain ⟨⟨later, after⟩, found, same⟩ := Option.map_eq_some_iff.mp mapped
  obtain ⟨sameBody, sameRest⟩ := Prod.mk.inj same
  exact ⟨later, by rw [found, ← sameRest], sameBody.symm⟩

/-- What is read of a text is no longer than the text, and shorter if there is a backslash: it is
lost, and what stands behind it is read in its place. -/
theorem length_stringBody?_quotedBody (text : List Char) {body rest : List Char}
    (read : stringBody? '\'' (quotedBody text ++ ['\'']) = some (body, rest)) :
    body.length ≤ text.length ∧ ('\\' ∈ text → body.length < text.length) := by
  cases text with
  | nil =>
      obtain ⟨rfl, -⟩ := Prod.mk.inj (Option.some.inj ((stringBody?_quote []).symm.trans read))
      simp
  | cons c later =>
      by_cases backslash : c = '\\'
      · rw [backslash, quotedBody_cons (by decide), List.cons_append] at read
        cases later with
        | nil =>
            change stringBody? '\'' ['\\', '\''] = some (body, rest) at read
            simp [stringBody?] at read
        | cons d others =>
            by_cases quote : d = '\''
            · -- the apostrophe's own backslash is read as a character, so the string ends here
              rw [quote, quotedBody_quote, List.cons_append, List.cons_append,
                stringBody?_escaped, stringBody?_quote] at read
              obtain ⟨rfl, -⟩ := Prod.mk.inj (Option.some.inj read)
              simp
            · rw [quotedBody_cons quote, List.cons_append, stringBody?_escaped] at read
              obtain ⟨inner, othersRead, rfl⟩ := exists_of_map_cons read
              have shorter := (length_stringBody?_quotedBody others othersRead).1
              simp only [List.length_cons]
              omega
      · have laterRead : ∃ inner,
            stringBody? '\'' (quotedBody later ++ ['\'']) = some (inner, rest) ∧
              body = c :: inner := by
          by_cases quote : c = '\''
          · rw [quote, quotedBody_quote, List.cons_append, List.cons_append,
              stringBody?_escaped] at read
            rw [quote]
            exact exists_of_map_cons read
          · rw [quotedBody_cons quote, List.cons_append,
              stringBody?_ordinary backslash quote] at read
            exact exists_of_map_cons read
        obtain ⟨inner, innerRead, rfl⟩ := laterRead
        obtain ⟨longer, shorter⟩ := length_stringBody?_quotedBody later innerRead
        have notFirst : '\\' ≠ c := Ne.symm backslash
        simp only [List.length_cons, List.mem_cons, notFirst, false_or, Nat.add_le_add_iff_right,
          Nat.add_lt_add_iff_right]
        exact ⟨longer, shorter⟩
termination_by text.length

/-- The written string is cut into the token of this string exactly if it has no backslash. -/
theorem scan_literalText_iff {text : String} :
    (∃ value : ValueDerivation, scan (literalText text).toList = .ok [value.token] ∧
      value.operand = .literal (.string text)) ↔ '\\' ∉ text.toList := by
  have letters : (literalText text).toList = '\'' :: (quotedBody text.toList ++ ['\'']) := by
    simp [literalText, quotedBody]
  rw [letters]
  constructor
  · rintro ⟨value, scanned, denotes⟩ backslash
    cases value with
    | placeholder name =>
        cases denotes
    | number spelling value =>
        cases denotes
    | string written =>
        have same : written = text := by
          simpa [ValueDerivation.operand] using denotes
        obtain ⟨rest, taken, _⟩ := front_of_scan (by decide) scanned
        change readString '\'' (quotedBody text.toList ++ ['\'']) = _ at taken
        unfold readString at taken
        split at taken
        · next body behind found =>
            have token : Token.string (String.ofList body) = .string written :=
              (Prod.mk.inj (Except.ok.inj taken)).1
            have spelled : body = text.toList := by
              rw [← same, ← Token.string.inj token, String.toList_ofList]
            have shorter := (length_stringBody?_quotedBody text.toList found).2 backslash
            rw [spelled] at shorter
            omega
        · cases taken
  · intro plain
    have taken : front '\'' (quotedBody text.toList ++ ['\'']) = .ok (.string text, []) := by
      change readString '\'' (quotedBody text.toList ++ ['\'']) = _
      rw [readString, stringBody?_quotedBody plain []]
      simp
    refine ⟨.string text, ?_, rfl⟩
    rw [scan_token (by decide) taken, scan_nil]
    rfl

end Strings

section Numbers

theorem isBlank_of_isGap {c : Char} (gap : isGap c = true) : Text.isBlank c = true := by
  simp only [isGap, Bool.or_eq_true, decide_eq_true_eq] at gap
  rcases gap with (((rfl | rfl) | rfl) | rfl) | rfl
  all_goals rfl

theorem isBlank_of_isNumberChar {c : Char} (numeric : IsNumberChar c) :
    Text.isBlank c = false := by
  simp only [IsNumberChar, isNumeralChar, Bool.or_eq_true, decide_eq_true_eq] at numeric
  rcases numeric with ((((digit | rfl) | rfl) | rfl) | rfl) | rfl
  · have bounds := toNat_of_isDigit digit
    simp only [Text.isBlank, Bool.or_eq_false_iff, Bool.and_eq_false_iff,
      decide_eq_false_iff_not, beq_eq_false_iff_ne]
    omega
  all_goals rfl

theorem isGap_of_isNumberChar {c : Char} (numeric : IsNumberChar c) : isGap c = false := by
  by_contra gap
  have blank : Text.isBlank c = true := isBlank_of_isGap (by simpa using gap)
  rw [isBlank_of_isNumberChar numeric] at blank
  cases blank

theorem IsUnsigned.isNumberChar {text : List Char} (unsigned : IsUnsigned text) :
    ∀ c ∈ text, IsNumberChar c := by
  obtain ⟨first, others, rfl, digit, kept⟩ := unsigned
  intro c member
  rcases List.mem_cons.mp member with isFirst | behind
  · exact isFirst ▸ isNumberChar_of_isDigit digit
  · exact kept c behind

variable {sign unsigned : List Char} {number : Number}

/-- A number is cut into one token exactly if it has no minus but its sign, and is then read by the
strict grammar. -/
theorem scan_readNumber_iff {c : Char} {rest : List Char} (isUnsigned : IsUnsigned unsigned)
    (spelled : c :: rest = sign ++ unsigned) (noGap : isGap c = false)
    (reads : front c rest = readNumber sign unsigned) :
    (∃ value : ValueDerivation, scan (c :: rest) = .ok [value.token] ∧
      value.operand = .literal (.number number)) ↔
        '-' ∉ unsigned ∧ Number.ofStrict? (c :: rest) = some number := by
  have numeric := IsUnsigned.isNumberChar isUnsigned
  constructor
  · rintro ⟨value, scanned, denotes⟩
    obtain ⟨behind, taken, nothing⟩ := front_of_scan noGap scanned
    rw [reads] at taken
    have left := readNumber_rest taken
    have noneLeft : unsigned.dropWhile isNumeralChar = [] := by
      rw [← left]
      apply List.eq_nil_iff_forall_not_mem.mpr
      intro d member
      have inNumber : d ∈ unsigned := by
        rw [left] at member
        exact (List.dropWhile_suffix _).subset member
      have gap := isGap_of_scan nothing d member
      rw [isGap_of_isNumberChar (numeric d inNumber)] at gap
      cases gap
    have numerals : ∀ d ∈ unsigned, isNumeralChar d = true :=
      List.dropWhile_eq_nil_iff.mp noneLeft
    refine ⟨fun minus => absurd (numerals '-' minus) (by decide), ?_⟩
    rw [readNumber, List.takeWhile_eq_self_iff.mpr numerals, noneLeft, ← spelled] at taken
    split at taken
    · next found read =>
        have token := (Prod.mk.inj (Except.ok.inj taken)).1
        cases value with
        | number spelling written =>
            have sameValue : found = written := (Token.number.inj token).2
            have sameNumber : written = number := by
              simpa [ValueDerivation.operand] using denotes
            rw [read, sameValue, sameNumber]
        | _ =>
            cases token
    · cases taken
  · rintro ⟨noMinus, read⟩
    have numerals : ∀ d ∈ unsigned, isNumeralChar d = true := by
      intro d member
      rcases numeric d member with numeral | minus
      · exact numeral
      · exact absurd (minus ▸ member) noMinus
    have taken : front c rest = .ok (.number (String.ofList (c :: rest)) number, []) := by
      rw [reads, readNumber, List.takeWhile_eq_self_iff.mpr numerals,
        List.dropWhile_eq_nil_iff.mpr numerals, ← spelled, read]
    refine ⟨.number (String.ofList (c :: rest)) number, ?_, rfl⟩
    rw [scan_token noGap taken, scan_nil]
    rfl

theorem scan_number_iff {text : List Char} (shape : IsNumberText text) :
    (∃ value : ValueDerivation, scan text = .ok [value.token] ∧
      value.operand = .literal (.number number)) ↔
        '-' ∉ text.tail ∧ Number.ofStrict? text = some number := by
  cases shape with
  | plain isUnsigned =>
      have numeric := IsUnsigned.isNumberChar isUnsigned
      obtain ⟨first, others, rfl, digit, kept⟩ := isUnsigned
      have noGap := isGap_of_isNumberChar (numeric first List.mem_cons_self)
      have notFirst : '-' ≠ first := by
        rintro rfl
        cases digit
      have onlyBehind : '-' ∈ first :: others ↔ '-' ∈ others :=
        List.mem_cons.trans (or_iff_right notFirst)
      rw [scan_readNumber_iff ⟨first, others, rfl, digit, kept⟩ (List.nil_append _).symm noGap
        (front_digit digit others), onlyBehind, List.tail_cons]
  | @minus unsigned isUnsigned =>
      have spelled : '-' :: unsigned = ['-'] ++ unsigned := rfl
      exact scan_readNumber_iff isUnsigned spelled (by decide) rfl

end Numbers

end Lexer

/-- The comparison of a field with a literal. -/
def Predicate.ofLiteral (field : String) (comparator : Comparator) (literal : Json) : Predicate :=
  ⟨field, .compare comparator, some (.literal literal)⟩

namespace Condition

/-- The text of the comparison is read as the comparison. -/
def ReadsBack (field : String) (comparator : Comparator) (literal : Json) : Prop :=
  parse (Predicate.ofLiteral field comparator literal).text =
    .ok (Formula.leaf (Predicate.ofLiteral field comparator literal))

/-- The only derivations of a comparison are those of its literal. -/
theorem ofTokens_comparison_iff {field : String} {comparator : Comparator} {literal : Json}
    {tokens : List Token} :
    ofTokens (.identifier field :: .comparator comparator :: tokens) =
        .ok (Formula.leaf (Predicate.ofLiteral field comparator literal)) ↔
      ∃ value : ValueDerivation, tokens = [value.token] ∧ value.operand = .literal literal := by
  rw [ofTokens_eq_ok_iff]
  constructor
  · rintro ⟨derivation, spelled, denotes⟩
    cases derivation with
    | link term join rest =>
        cases denotes
    | single term =>
        have denoted : ConditionDerivation.denoted term =
            .leaf (Predicate.ofLiteral field comparator literal) := Chain.single.inj denotes
        cases term with
        | group inner =>
            simp at denoted
        | leaf predicate =>
            obtain ⟨name, comparison⟩ := predicate
            have leafDenoted := (ConditionDerivation.denoted_leaf ⟨name, comparison⟩).symm
            have predicate := Tree.leaf.inj (leafDenoted.trans denoted)
            have operator : comparison.operator = .compare comparator :=
              congrArg Predicate.operator predicate
            have operand : comparison.operand? = some (.literal literal) :=
              congrArg Predicate.operand predicate
            cases comparison with
            | compare _ value =>
                refine ⟨value, ?_, Option.some.inj operand⟩
                simp only [ConditionDerivation.tokens_single, ConditionDerivation.termTokens_leaf,
                  PredicateDerivation.tokens, ComparisonDerivation.tokens] at spelled
                exact (List.cons.inj (List.cons.inj spelled).2).2.symm
            | _ =>
                cases operator
  · rintro ⟨value, rfl, denotes⟩
    refine ⟨.single (.leaf ⟨field, .compare comparator value⟩), rfl, ?_⟩
    have operand : some value.operand = some (.literal literal) := congrArg some denotes
    simp [ConditionDerivation.condition, Chain.map, PredicateDerivation.predicate,
      ComparisonDerivation.operator, ComparisonDerivation.operand?, Predicate.ofLiteral,
      Formula.leaf, operand]

/-- A comparison is read back exactly if the text of its literal is cut into one token that denotes
the literal. -/
theorem readsBack_iff {field : String} (identifier : IsIdentifier field) (comparator : Comparator)
    {literal : Json} (bare : Text.Bare (Operand.literal literal).text.toList) :
    ReadsBack field comparator literal ↔
      ∃ value : ValueDerivation,
        Lexer.scan (Operand.literal literal).text.toList = .ok [value.token] ∧
          value.operand = .literal literal := by
  let subject := field ++ " " ++ comparator.text
  have writes : Writes subject ([.identifier field] ++ [.comparator comparator]) :=
    (Writes.identifier identifier).spaced (Writes.comparator comparator)
  have letters : (Predicate.ofLiteral field comparator literal).text.toList =
      subject.toList ++ ' ' :: (Operand.literal literal).text.toList := by
    simp [Predicate.text, Predicate.ofLiteral, Operator.text, subject]
  have wholeBare : Text.Bare (Predicate.ofLiteral field comparator literal).text.toList := by
    have joined := writes.bare.append [' '] bare
    rwa [List.append_assoc, List.singleton_append, ← letters] at joined
  have scanned : Lexer.scan (Predicate.ofLiteral field comparator literal).text.toList =
      (Lexer.scan (Operand.literal literal).text.toList).map
        ([.identifier field, .comparator comparator] ++ ·) := by
    rw [letters, writes.spells _ ((Lexer.detached_cons _ _).mpr (by decide)),
      Lexer.scan_gap (by decide)]
    rfl
  unfold ReadsBack parse
  rw [wholeBare.trim_eq]
  split
  · next empty =>
      exact absurd empty wholeBare.ne_nil
  · rw [scanned]
    cases Lexer.scan (Operand.literal literal).text.toList with
    | error fault =>
        simp [Except.map]
    | ok tokens =>
        have denoted : ofTokens (.identifier field :: .comparator comparator :: tokens) =
            .ok (Formula.leaf (Predicate.ofLiteral field comparator literal)) ↔
              ∃ value : ValueDerivation,
                tokens = [value.token] ∧ value.operand = .literal literal :=
          ofTokens_comparison_iff
        apply denoted.trans
        simp

theorem bare_literalText (text : String) : Text.Bare (literalText text).toList := by
  have letters : (literalText text).toList =
      '\'' :: (Lexer.quotedBody text.toList ++ ['\'']) := by
    simp [literalText, Lexer.quotedBody]
  rw [letters]
  refine ⟨⟨'\'', rfl, by decide⟩, ⟨'\'', ?_, by decide⟩⟩
  rw [← List.cons_append, List.getLast?_append]
  rfl

theorem bare_of_isNumberText {text : List Char} (shape : IsNumberText text) :
    Text.Bare text := by
  cases shape with
  | plain isUnsigned =>
      have numeric := Lexer.IsUnsigned.isNumberChar isUnsigned
      obtain ⟨first, others, rfl, _, _⟩ := isUnsigned
      apply Text.Bare.of_all (List.cons_ne_nil first others)
      exact fun c member => Lexer.isBlank_of_isNumberChar (numeric c member)
  | minus isUnsigned =>
      have numeric := Lexer.IsUnsigned.isNumberChar isUnsigned
      apply Text.Bare.of_all (List.cons_ne_nil '-' _)
      intro c member
      rcases List.mem_cons.mp member with isMinus | behind
      · exact isMinus ▸ by decide
      · exact Lexer.isBlank_of_isNumberChar (numeric c behind)

section Literals

variable {field : String} (identifier : IsIdentifier field) (comparator : Comparator)
include identifier

theorem readsBack_string_iff (text : String) :
    ReadsBack field comparator (.string text) ↔ '\\' ∉ text.toList := by
  have letters : (Operand.literal (.string text)).text = literalText text := by
    rw [Operand.text]
  have bare : Text.Bare (Operand.literal (.string text)).text.toList :=
    letters ▸ bare_literalText text
  apply (readsBack_iff identifier comparator bare).trans
  rw [letters]
  exact Lexer.scan_literalText_iff

theorem readsBack_number_iff (number : Number) :
    ReadsBack field comparator (.number number) ↔
      '-' ∉ number.chars.tail ∧ Number.ofStrict? number.chars = some number := by
  have shape := number.isNumberText_chars
  have letters : (Operand.literal (.number number)).text.toList = number.chars := by
    simp only [Operand.text, Json.text, Number.text, String.toList_ofList]
  have bare : Text.Bare (Operand.literal (.number number)).text.toList :=
    letters ▸ bare_of_isNumberText shape
  apply (readsBack_iff identifier comparator bare).trans
  rw [letters]
  exact Lexer.scan_number_iff shape

/-- A comparison with a string is read back exactly if the string has no backslash, one with an
integer always, and one with a binary64 number exactly if the number is not tiny and its text stands
for it. -/
theorem parse_text_literal :
    (∀ text, ReadsBack field comparator (.string text) ↔ '\\' ∉ text.toList) ∧
    (∀ value, Number.isInteger value = true →
      ReadsBack field comparator (.number (.integer value))) ∧
    ∀ value : Binary64, ReadsBack field comparator (.number (.float value)) ↔
      ¬ value.IsTiny ∧ Number.ofStrict? value.text = some (.float value) := by
  refine ⟨readsBack_string_iff identifier comparator, ?_, ?_⟩
  · intro value small
    apply (readsBack_number_iff identifier comparator (.integer value)).mpr
    exact ⟨Number.minus_not_mem_integerText value, Number.ofStrict?_integerText small⟩
  · intro value
    apply (readsBack_number_iff identifier comparator (.float value)).trans
    rw [← Binary64.minus_mem_tail_iff]
    rfl

end Literals

/-- An apostrophe, a line break and a quotation mark are read back, and so is the least integer. -/
theorem parse_text_literal_name :
    IsIdentifier "name" ∧ ReadsBack "name" .eq (.string "it's\n\"so\"") ∧
      ReadsBack "name" .eq (.number (.integer (-9223372036854775808))) := by
  have identifier : IsIdentifier "name" := by decide
  obtain ⟨strings, integers, _⟩ := parse_text_literal identifier .eq
  exact ⟨identifier, (strings _).mpr (by decide), integers _ (by decide)⟩

/-- The number that `0.000001` is read as. -/
def millionth : Binary64 :=
  ⟨false, 4517329193108106637, by decide⟩

/-- A backslash is lost, and a power of ten is cut at its minus. -/
theorem parse_text_literal_lost :
    parse (Predicate.ofLiteral "f" .eq (.string "a\\b")).text =
      .ok (Formula.leaf (Predicate.ofLiteral "f" .eq (.string "ab"))) ∧
    parse "f = 0.000001" =
      .ok (Formula.leaf (Predicate.ofLiteral "f" .eq (.number (.float millionth)))) ∧
    Number.ofStrict? millionth.text = some (.float millionth) ∧
    parse (Predicate.ofLiteral "f" .eq (.number (.float millionth))).text =
      .error (.badSyntax (.invalidNumber "1e")) := by
  refine ⟨?_, ?_, ?_, ?_⟩
  · decide +kernel
  · decide +kernel
  · decide +kernel
  · decide +kernel

end Condition

end DocQuery
