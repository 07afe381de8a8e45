import DocQuery.Condition.Basic
import DocQuery.Json.Text

/-!
# The text of a condition

Parameters are written between colons and strings between apostrophes, with a backslash in
front of an apostrophe inside. Other literals have their JSON text.
-/

namespace DocQuery

/-- A string literal. Only the apostrophe is escaped. -/
def literalText (value : String) : String :=
  String.ofList
    ('\'' :: value.toList.flatMap (fun c => if c = '\'' then ['\\', '\''] else [c]) ++ ['\''])

def parameterText (name : String) : String :=
  ":" ++ name ++ ":"

namespace Operand

mutual

def text : Operand → String
  | .parameter name => parameterText name
  | .literal (.string value) => literalText value
  | .literal value => value.text
  | .list items => "(" ++ String.intercalate ", " (texts items) ++ ")"

def texts : List Operand → List String
  | [] => []
  | item :: rest => item.text :: texts rest

end

end Operand

def Predicate.text (predicate : Predicate) : String :=
  let subject := predicate.field ++ " " ++ predicate.operator.text
  match predicate.operand with
  | some operand => subject ++ " " ++ operand.text
  | none => subject

namespace Condition

/-- The text of a group, given the texts of its members. -/
def groupText (members : Chain String) : String :=
  "(" ++ members.text ++ ")"

def nodeText (node : Tree Predicate) : String :=
  node.fold Predicate.text groupText

def text (condition : Condition) : String :=
  (Tree.foldChain Predicate.text groupText condition).text

end Condition

end DocQuery
