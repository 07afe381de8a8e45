import DocQuery.Condition.Token
import DocQuery.Store.Failure

/-!
# Errors of a query

Each kind of error is a constructor that carries its cause; `message` gives the wording.
-/

namespace DocQuery

inductive SyntaxFault where
  | emptyExpression
  | loneExclamation
  | unknownCharacter (found : Char)
  | emptyPlaceholder
  | unclosedPlaceholder (name : String)
  | unclosedString
  | invalidNumber (spelling : String)
  | unexpected (found : Option Token)
  | unexpectedInGroup (found : Token)
  | emptyGroup
  | unclosedGroup
  | strayCloseParen
  | tooFewArguments (clause : String)
  | tooManyArguments (clause : String)
deriving DecidableEq

def SyntaxFault.message : SyntaxFault → String
  | .emptyExpression => "empty expression"
  | .loneExclamation => "unrecognized operator '!'"
  | .unknownCharacter found => "unrecognized character '" ++ found.toString ++ "'"
  | .emptyPlaceholder => "empty placeholder name after ':'"
  | .unclosedPlaceholder name => "placeholder ':" ++ name ++ "' is missing its closing ':'"
  | .unclosedString => "unterminated string literal"
  | .invalidNumber spelling => "invalid number '" ++ spelling ++ "'"
  | .unexpected found => "unexpected " ++ Token.textOrEnd found
  | .unexpectedInGroup found => "unexpected " ++ found.text ++ " inside group"
  | .emptyGroup => "empty parenthesis group"
  | .unclosedGroup => "unbalanced parentheses: missing ')'"
  | .strayCloseParen => "unbalanced parentheses: unexpected ')'"
  | .tooFewArguments clause => "more '?' placeholders than arguments in '" ++ clause ++ "'"
  | .tooManyArguments clause => "more arguments than '?' placeholders in '" ++ clause ++ "'"

inductive Unsupported where
  | fieldExpected
  | operatorExpected
  | valueExpected
  | notWithoutIn
  | isWithoutNull
  | between
  | unclosedList
  | trailingInput
  | missingValue
  | singleValueExpected (operator : Operator)
  | patternExpected
  | emptyList
  | patternShape
deriving DecidableEq

def Unsupported.reason : Unsupported → String
  | .fieldExpected => "expected a field name"
  | .operatorExpected => "expected a comparison operator"
  | .valueExpected => "expected a placeholder or literal value"
  | .notWithoutIn => "NOT is only supported as NOT IN"
  | .isWithoutNull => "IS must be followed by [NOT] NULL"
  | .between => "BETWEEN is not supported, use >= and <="
  | .unclosedList => "unterminated IN list"
  | .trailingInput => "unexpected trailing input"
  | .missingValue => "missing value"
  | .singleValueExpected operator => operator.text ++ " expects a single value"
  | .patternExpected => "LIKE expects a string pattern"
  | .emptyList => "IN requires at least one value"
  | .patternShape => "only 'x%', '%x%' and wildcard-free LIKE patterns are supported"

inductive OrderFault where
  | notSortKey (sortKey field : String)
  | noSortKey (field : String)
deriving DecidableEq

def OrderFault.message : OrderFault → String
  | .notSortKey sortKey field =>
      "can only order by sort key '" ++ sortKey ++ "', not '" ++ field ++ "'"
  | .noSortKey field => "no sort key to order '" ++ field ++ "' by"

inductive QueryFault where
  | badSyntax (fault : SyntaxFault)
  | unsupportedCondition (condition : String) (reason : Unsupported)
  | unboundParameter (name : String)
  | missingIndexKeyCondition (index : String)
  | unsupportedOrder (fault : OrderFault)
  | unknownIndex (index : String)
  | missingSource
  | store (failure : StoreFailure)
deriving DecidableEq

def QueryFault.message : QueryFault → String
  | .badSyntax fault => "Syntax error: " ++ fault.message
  | .unsupportedCondition condition reason =>
      "Unsupported condition '" ++ condition ++ "': " ++ reason.reason
  | .unboundParameter name => "Unbound parameter: " ++ name
  | .missingIndexKeyCondition index => "No key condition targets index '" ++ index ++ "'"
  | .unsupportedOrder fault => "Unsupported order: " ++ fault.message
  | .unknownIndex index => "Unknown index: " ++ index
  | .missingSource => "No table or index selected"
  | .store failure => failure.text

end DocQuery
