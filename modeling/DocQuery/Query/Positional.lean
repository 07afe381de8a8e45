import DocQuery.Condition.Resolution

/-!
# Positional arguments

A question mark outside of quoted text stands for the next argument. It is replaced by a
placeholder with a generated name, to which the argument is bound. Whether a character is
quoted is followed through the text with the same rules as for strings in conditions.
-/

namespace DocQuery

/-- Where a character of a clause stands: outside of strings, inside one, or behind a
backslash in one. -/
inductive QuoteState where
  | outside
  | inside (quote : Char)
  | escaped (quote : Char)
deriving DecidableEq

/-- Where the character after `c` stands. -/
def QuoteState.next : QuoteState → Char → QuoteState
  | .outside, c => if c = '\'' ∨ c = '"' then .inside c else .outside
  | .inside quote, c =>
      if c = '\\' then .escaped quote
      else if c = quote then .outside
      else .inside quote
  | .escaped quote, _ => .inside quote

namespace Positional

/-- The name of the argument with this number, counted over all clauses of a query. -/
def name (number : Nat) : String :=
  "arg_" ++ toString number

/-- The number of the next argument and the values bound so far. -/
structure Bindings where
  next : Nat
  parameters : Parameters

def Bindings.bind (bindings : Bindings) (value : Json) : Bindings :=
  ⟨bindings.next + 1, bindings.parameters.insert (name bindings.next) value⟩

/-- Replaces the question marks of what is left of a clause. -/
def expandFrom (clause : String) (state : QuoteState) (arguments : List Json)
    (bindings : Bindings) : List Char → Except SyntaxFault (List Char × Bindings)
  | [] =>
      if arguments.isEmpty then .ok ([], bindings)
      else .error (.tooManyArguments clause)
  | c :: rest =>
      if state = .outside ∧ c = '?' then
        match arguments with
        | [] => .error (.tooFewArguments clause)
        | value :: others => do
            let placeholder := parameterText (name bindings.next)
            let (text, after) ← expandFrom clause .outside others (bindings.bind value) rest
            return (placeholder.toList ++ text, after)
      else do
        let (text, after) ← expandFrom clause (state.next c) arguments bindings rest
        return (c :: text, after)

/-- Replaces the question marks of a clause by placeholders for its arguments. -/
def expand (clause : String) (arguments : List Json) (bindings : Bindings) :
    Except SyntaxFault (String × Bindings) := do
  let (text, after) ← expandFrom clause .outside arguments bindings clause.toList
  return (String.ofList text, after)

end Positional

end DocQuery
