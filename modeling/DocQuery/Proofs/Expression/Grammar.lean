import DocQuery.Attribute.Basic
import DocQuery.Condition.Basic

/-!
# The expression language of a key-value store

An expression is read from its text in two steps. Scanning cuts the text into tokens; every
alias is replaced by the attribute name and every placeholder by the value that the tables give
for it, so that a name missing in a table is no expression. Reading then follows the grammar

* `disjunction := conjunction (OR conjunction)*`
* `conjunction := factor (AND factor)*`
* `factor := NOT factor | ( disjunction ) | comparison`
* `comparison := path = value | path <> value | path < value | ... | path IN (value, ...)`
  `| begins_with(path, value) | contains(path, value)`
  `| attribute_exists(path) | attribute_not_exists(path)`
* `path := name (. name)*`

An expression is true or false once the truth of its comparisons is given.
-/

namespace DocQuery

/-- A comparison of one attribute with values. -/
inductive Comparison where
  | compare (comparator : Comparator) (value : Attribute)
  | within (values : List Attribute)
  | beginsWith (value : Attribute)
  | contains (value : Attribute)
  | present
deriving DecidableEq

/-- Which comparisons are true of which fields. -/
abbrev Assignment := String → Comparison → Bool

inductive Expression where
  | atom (field : String) (comparison : Comparison)
  | not (inner : Expression)
  | and (left right : Expression)
  | or (left right : Expression)
deriving DecidableEq

def Expression.holds (truth : Assignment) : Expression → Bool
  | .atom field comparison => truth field comparison
  | .not inner => !inner.holds truth
  | .and left right => left.holds truth && right.holds truth
  | .or left right => left.holds truth || right.holds truth

namespace Expression

inductive Keyword where
  | and
  | or
  | not
  | isIn
  | beginsWith
  | contains
  | attributeExists
  | attributeNotExists
deriving DecidableEq, Repr

def Keyword.ofText? : String → Option Keyword
  | "AND" => some .and
  | "OR" => some .or
  | "NOT" => some .not
  | "IN" => some .isIn
  | "begins_with" => some .beginsWith
  | "contains" => some .contains
  | "attribute_exists" => some .attributeExists
  | "attribute_not_exists" => some .attributeNotExists
  | _ => none

/-- A token, with aliases and placeholders replaced by what they stand for. -/
inductive Token where
  | name (segment : String)
  | value (value : Attribute)
  | keyword (keyword : Keyword)
  | comparator (comparator : Comparator)
  | openParen
  | closeParen
  | comma
  | dot
deriving DecidableEq

/-- The names that aliases and the values that placeholders stand for. -/
structure Tables where
  names : Dictionary String
  values : Dictionary Attribute

/-- Whether aliases, placeholders and words go on with a character. -/
def isNameChar (c : Char) : Bool :=
  c.isAlphanum || c == '_'

def scan (tables : Tables) : List Char → Option (List Token)
  | [] => some []
  | ' ' :: rest => scan tables rest
  | '(' :: rest => (scan tables rest).map (.openParen :: ·)
  | ')' :: rest => (scan tables rest).map (.closeParen :: ·)
  | ',' :: rest => (scan tables rest).map (.comma :: ·)
  | '.' :: rest => (scan tables rest).map (.dot :: ·)
  | '=' :: rest => (scan tables rest).map (.comparator .eq :: ·)
  | '<' :: '>' :: rest => (scan tables rest).map (.comparator .ne :: ·)
  | '<' :: '=' :: rest => (scan tables rest).map (.comparator .le :: ·)
  | '<' :: rest => (scan tables rest).map (.comparator .lt :: ·)
  | '>' :: '=' :: rest => (scan tables rest).map (.comparator .ge :: ·)
  | '>' :: rest => (scan tables rest).map (.comparator .gt :: ·)
  | '#' :: rest => do
      let segment ← tables.names.get? (String.ofList ('#' :: rest.takeWhile isNameChar))
      (scan tables (rest.dropWhile isNameChar)).map (.name segment :: ·)
  | ':' :: rest => do
      let value ← tables.values.get? (String.ofList (':' :: rest.takeWhile isNameChar))
      (scan tables (rest.dropWhile isNameChar)).map (.value value :: ·)
  | c :: rest => do
      let keyword ← Keyword.ofText? (String.ofList (c :: rest.takeWhile isNameChar))
      (scan tables (rest.dropWhile isNameChar)).map (.keyword keyword :: ·)
termination_by text => text.length
decreasing_by
  all_goals simp_wf
  all_goals have := (List.dropWhile_sublist isNameChar (l := rest)).length_le
  all_goals omega

@[simp]
theorem scan_nil (tables : Tables) : scan tables [] = some [] := by
  rw [scan]

def readPath : List Token → Option (List String × List Token)
  | .name segment :: .dot :: rest => do
      let (segments, rest) ← readPath rest
      return (segment :: segments, rest)
  | .name segment :: rest => some ([segment], rest)
  | _ => none

def readField (tokens : List Token) : Option (String × List Token) := do
  let (segments, rest) ← readPath tokens
  return (String.intercalate "." segments, rest)

/-- Reads values up to a closing parenthesis. -/
def readValues : List Token → Option (List Attribute × List Token)
  | .value value :: .comma :: rest => do
      let (values, rest) ← readValues rest
      return (value :: values, rest)
  | .value value :: .closeParen :: rest => some ([value], rest)
  | _ => none

/-- Reads a field, a value and a closing parenthesis. -/
def readArguments (tokens : List Token) : Option (String × Attribute × List Token) :=
  match readField tokens with
  | some (field, .comma :: .value value :: .closeParen :: rest) => some (field, value, rest)
  | _ => none

def readArgument (tokens : List Token) : Option (String × List Token) :=
  match readField tokens with
  | some (field, .closeParen :: rest) => some (field, rest)
  | _ => none

/-- Reads what a comparison says of a field that stands in front. -/
def readInfix (field : String) : List Token → Option (Expression × List Token)
  | .comparator comparator :: .value value :: rest =>
      some (.atom field (.compare comparator value), rest)
  | .keyword .isIn :: .openParen :: rest => do
      let (values, rest) ← readValues rest
      return (.atom field (.within values), rest)
  | _ => none

def readComparison : List Token → Option (Expression × List Token)
  | .keyword .beginsWith :: .openParen :: rest => do
      let (field, value, rest) ← readArguments rest
      return (.atom field (.beginsWith value), rest)
  | .keyword .contains :: .openParen :: rest => do
      let (field, value, rest) ← readArguments rest
      return (.atom field (.contains value), rest)
  | .keyword .attributeExists :: .openParen :: rest => do
      let (field, rest) ← readArgument rest
      return (.atom field .present, rest)
  | .keyword .attributeNotExists :: .openParen :: rest => do
      let (field, rest) ← readArgument rest
      return (.not (.atom field .present), rest)
  | tokens => do
      let (field, rest) ← readField tokens
      readInfix field rest

mutual

def readDisjunction : Nat → List Token → Option (Expression × List Token)
  | 0, _ => none
  | fuel + 1, tokens => do
      match ← readConjunction fuel tokens with
      | (first, .keyword .or :: rest) =>
          let (others, rest) ← readDisjunction fuel rest
          return (.or first others, rest)
      | read => return read

def readConjunction : Nat → List Token → Option (Expression × List Token)
  | 0, _ => none
  | fuel + 1, tokens => do
      match ← readFactor fuel tokens with
      | (first, .keyword .and :: rest) =>
          let (others, rest) ← readConjunction fuel rest
          return (.and first others, rest)
      | read => return read

def readFactor : Nat → List Token → Option (Expression × List Token)
  | 0, _ => none
  | fuel + 1, .keyword .not :: rest => do
      let (inner, rest) ← readFactor fuel rest
      return (.not inner, rest)
  | fuel + 1, .openParen :: rest => do
      match ← readDisjunction fuel rest with
      | (inner, .closeParen :: rest) => return (inner, rest)
      | _ => none
  | _ + 1, tokens => readComparison tokens

end

/-- The expression that tokens spell. Between two tokens taken from the text there are at most
three steps, so that the reader does not run out of them. -/
def ofTokens? (tokens : List Token) : Option Expression :=
  match readDisjunction (3 * tokens.length + 3) tokens with
  | some (expression, []) => some expression
  | _ => none

def ofText? (tables : Tables) (text : String) : Option Expression := do
  ofTokens? (← scan tables text.toList)

end Expression

end DocQuery
