import DocQuery.Condition.Text

/-!
# Tokens of the condition language

Joins and comparisons are one kind of token each. The end of the text is no token; where an
error mentions what was met, `none` stands for it.
-/

namespace DocQuery

/-- A token of the condition language. A number keeps its spelling beside its value. -/
inductive Token where
  | identifier (name : String)
  | placeholder (name : String)
  | number (spelling : String) (value : Number)
  | string (value : String)
  | comparator (kind : Comparator)
  | join (kind : Join)
  | openParen
  | closeParen
  | comma
  | not
  | isIn
  | like
  | is
  | null
  | between
deriving DecidableEq

namespace Token

def text : Token → String
  | .identifier name => name
  | .placeholder name => parameterText name
  | .number spelling _ => spelling
  | .string value => literalText value
  | .comparator kind => kind.text
  | .join kind => kind.text
  | .openParen => "("
  | .closeParen => ")"
  | .comma => ","
  | .not => "NOT"
  | .isIn => "IN"
  | .like => "LIKE"
  | .is => "IS"
  | .null => "NULL"
  | .between => "BETWEEN"

/-- The words that are not identifiers, in lower case. -/
def keywords : List (String × Token) :=
  [("and", .join .and), ("or", .join .or), ("not", .not), ("in", .isIn), ("like", .like),
    ("is", .is), ("null", .null), ("between", .between)]

/-- The token of a word: a keyword in any mixture of cases, else an identifier. -/
def ofWord (word : List Char) : Token :=
  match keywords.lookup (String.ofList (word.map Char.toLower)) with
  | some keyword => keyword
  | none => .identifier (String.ofList word)

def operand? : Token → Option Operand
  | .placeholder name => some (.parameter name)
  | .string value => some (.literal (.string value))
  | .number _ value => some (.literal (.number value))
  | _ => none

/-- Whether a predicate may end in front of this token. -/
def endsTerm : Option Token → Bool
  | none | some (.join _) | some .closeParen => true
  | _ => false

/-- The text of a token, or the name of the end of the text. -/
def textOrEnd : Option Token → String
  | some token => token.text
  | none => "end of expression"

/-- The texts of the tokens up to the end of the predicate they begin. Inside `depth`
parentheses a join does not end it. -/
def leafTexts : Nat → List Token → List String
  | 0, [] => []
  | _ + 1, [] => [textOrEnd none]
  | depth, .openParen :: rest => text .openParen :: leafTexts (depth + 1) rest
  | depth + 1, .closeParen :: rest => text .closeParen :: leafTexts depth rest
  | depth, token :: rest =>
      if depth = 0 ∧ endsTerm (some token) then [] else token.text :: leafTexts depth rest

/-- The text of the predicate that the tokens begin with. -/
def leafText (tokens : List Token) : String :=
  String.intercalate " " (leafTexts 0 tokens)

end Token

end DocQuery
