import DocQuery.Proofs.Expression.Grammar
import DocQuery.Proofs.Text
import DocQuery.Store.Check

/-!
# Texts and the tokens they spell

A text spells some tokens when scanning it gives these tokens, whatever stands behind it, as long
as that does not go on with a character of a name.
-/

namespace DocQuery.Expression

/-- The text does not begin with a character of a name. -/
def Detached (text : List Char) : Prop :=
  ∀ c ∈ text.head?, isNameChar c = false

/-- Scanning the text in front of a detached one gives these tokens. -/
def Spells (tables : Tables) (text : List Char) (tokens : List Token) : Prop :=
  ∀ rest, Detached rest →
    scan tables (text ++ rest) = (scan tables rest).map (tokens ++ ·)

def Keyword.text : Keyword → String
  | .and => "AND"
  | .or => "OR"
  | .not => "NOT"
  | .isIn => "IN"
  | .beginsWith => "begins_with"
  | .contains => "contains"
  | .attributeExists => "attribute_exists"
  | .attributeNotExists => "attribute_not_exists"

@[simp]
theorem detached_nil : Detached [] := by
  simp [Detached]

@[simp]
theorem detached_cons (c : Char) (text : List Char) :
    Detached (c :: text) ↔ isNameChar c = false := by
  simp [Detached]

@[simp]
theorem isNameChar_separator {c : Char} (separator : c ∈ [' ', '(', ')', ',', '.']) :
    isNameChar c = false := by
  simp only [List.mem_cons, List.not_mem_nil, or_false] at separator
  rcases separator with rfl | rfl | rfl | rfl | rfl <;> decide

theorem Detached.append {text rest : List Char}
    (detached : Detached text) (restDetached : Detached rest) :
    Detached (text ++ rest) := by
  cases text with
  | nil =>
      simpa using restDetached
  | cons c others =>
      simpa using detached

namespace Spells

variable {tables : Tables}

theorem nil : Spells tables [] [] := by
  intro rest _
  simp

theorem append {first second : List Char} {firstTokens secondTokens : List Token}
    (firstSpells : Spells tables first firstTokens)
    (secondSpells : Spells tables second secondTokens) (detached : Detached second) :
    Spells tables (first ++ second) (firstTokens ++ secondTokens) := by
  intro rest restDetached
  rw [List.append_assoc, firstSpells _ (detached.append restDetached),
    secondSpells rest restDetached]
  simp [Function.comp_def]

theorem space {text : List Char} {tokens : List Token} (spells : Spells tables text tokens) :
    Spells tables (' ' :: text) tokens := by
  intro rest detached
  rw [List.cons_append, scan, spells rest detached]

/-- A character that is a token of its own in front of a text. -/
theorem symbol {c : Char} {token : Token} {text : List Char} {tokens : List Token}
    (scanned : ∀ rest, scan tables (c :: rest) = (scan tables rest).map (token :: ·))
    (spells : Spells tables text tokens) :
    Spells tables (c :: text) (token :: tokens) := by
  intro rest detached
  rw [List.cons_append, scanned, spells rest detached]
  simp [Function.comp_def]

theorem openParen {text : List Char} {tokens : List Token}
    (spells : Spells tables text tokens) :
    Spells tables ('(' :: text) (.openParen :: tokens) :=
  spells.symbol fun rest => by rw [scan]

theorem closeParen {text : List Char} {tokens : List Token}
    (spells : Spells tables text tokens) :
    Spells tables (')' :: text) (.closeParen :: tokens) :=
  spells.symbol fun rest => by rw [scan]

theorem comma {text : List Char} {tokens : List Token}
    (spells : Spells tables text tokens) :
    Spells tables (',' :: text) (.comma :: tokens) :=
  spells.symbol fun rest => by rw [scan]

theorem dot {text : List Char} {tokens : List Token}
    (spells : Spells tables text tokens) :
    Spells tables ('.' :: text) (.dot :: tokens) :=
  spells.symbol fun rest => by rw [scan]

/-- A comparison sign, which a blank has to follow. -/
theorem comparator (comparator : Comparator) {text : List Char} {tokens : List Token}
    (spells : Spells tables text tokens) :
    Spells tables (comparator.storeText.toList ++ ' ' :: text)
      (.comparator comparator :: tokens) := by
  intro rest detached
  have scanned := spells rest detached
  cases comparator <;>
    simp [Comparator.storeText, Comparator.text, scan, scanned, Function.comp_def]

theorem fieldAlias {name : List Char} {segment : String}
    (named : ∀ c ∈ name, isNameChar c = true)
    (found : tables.names.get? (String.ofList ('#' :: name)) = some segment) :
    Spells tables ('#' :: name) [.name segment] := by
  intro rest detached
  rw [List.cons_append, scan, Text.takeWhile_append_of_stops named detached,
    Text.dropWhile_append_of_stops named detached, found]
  simp

theorem placeholder {name : List Char} {value : Attribute}
    (named : ∀ c ∈ name, isNameChar c = true)
    (found : tables.values.get? (String.ofList (':' :: name)) = some value) :
    Spells tables (':' :: name) [.value value] := by
  intro rest detached
  rw [List.cons_append, scan, Text.takeWhile_append_of_stops named detached,
    Text.dropWhile_append_of_stops named detached, found]
  simp

/-- A word in front of a detached text is scanned as a whole. -/
theorem word {first : Char} {others : List Char} {keyword : Keyword}
    (named : ∀ c ∈ first :: others, isNameChar c = true)
    (spelled : Keyword.ofText? (String.ofList (first :: others)) = some keyword) :
    Spells tables (first :: others) [.keyword keyword] := by
  intro rest detached
  have firstNamed : isNameChar first = true := named first List.mem_cons_self
  have othersNamed : ∀ c ∈ others, isNameChar c = true :=
    fun c member => named c (List.mem_cons_of_mem first member)
  rw [List.cons_append, scan, Text.takeWhile_append_of_stops othersNamed detached,
    Text.dropWhile_append_of_stops othersNamed detached, spelled]
  · simp
  -- no character that is a token of its own is one of a name
  all_goals
    intros
    subst_vars
    exact absurd firstNamed (by decide)

theorem keyword (keyword : Keyword) {text : List Char} {tokens : List Token}
    (spells : Spells tables text tokens) (detached : Detached text) :
    Spells tables (keyword.text.toList ++ text) (.keyword keyword :: tokens) := by
  have word : Spells tables keyword.text.toList [.keyword keyword] := by
    cases keyword <;> exact Spells.word (List.all_eq_true.mp (by decide)) (by decide)
  exact word.append spells detached

end Spells

end DocQuery.Expression
