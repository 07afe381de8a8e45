import DocQuery.QueryFault

/-!
# Values of operands

A parameter stands for the value that is bound to its name. A name without a value is an
error, also inside a list.
-/

namespace DocQuery

abbrev Parameters := Dictionary Json

namespace Operand

mutual

def resolve (parameters : Parameters) : Operand → Except QueryFault Json
  | .parameter name =>
      match parameters.get? name with
      | some value => .ok value
      | none => .error (.unboundParameter name)
  | .literal value => .ok value
  | .list items => (resolveItems parameters items).map .array

/-- The values of several operands. The first one without a value is the error. -/
def resolveItems (parameters : Parameters) : List Operand → Except QueryFault (List Json)
  | [] => .ok []
  | item :: rest => do
      let value ← item.resolve parameters
      return value :: (← resolveItems parameters rest)

end

end Operand

end DocQuery
