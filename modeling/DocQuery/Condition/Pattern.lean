/-!
# Patterns

In a pattern `%` stands for any text. Three shapes of pattern are tests of their own: without
`%` the text is the pattern, with one `%` behind a text it begins with that text, and with a
`%` on both sides of a text it contains it.
-/

namespace DocQuery

/-- The shape of a pattern, with the text that is looked for. -/
inductive Pattern where
  | exact (text : String)
  | startsWith (text : String)
  | contains (text : String)
  | other (pattern : String)
deriving DecidableEq

namespace Pattern

def classify (pattern : String) : Pattern :=
  let text := pattern.toList
  let wildcards := text.count '%'
  if wildcards = 0 then
    .exact pattern
  else if wildcards = 1 ∧ text.getLast? = some '%' ∧ 1 < text.length then
    .startsWith (String.ofList text.dropLast)
  else if wildcards = 2 ∧ text.head? = some '%' ∧ text.getLast? = some '%'
      ∧ 2 < text.length then
    .contains (String.ofList text.tail.dropLast)
  else
    .other pattern

end Pattern

end DocQuery
