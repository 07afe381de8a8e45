import DocQuery.Condition.Lexer
import DocQuery.Proofs.Text

/-!
# Texts of conditions and their tokens

A text spells some tokens when cutting it gives these tokens, whatever stands behind it, as long
as that does not go on with a character of a word, a number or a comparison. Texts that spell
tokens are put together from words, signs and placeholders with blanks between them.
-/

namespace DocQuery.Lexer

/-- The text begins with no character that a token in front of it could go on with. -/
def Detached (text : List Char) : Prop :=
  ∀ c ∈ text.head?, isPathChar c = false ∧ isNumeralChar c = false ∧ c ≠ '=' ∧ c ≠ '>'

/-- Cutting the text in front of a detached one gives these tokens. -/
def Spells (text : List Char) (tokens : List Token) : Prop :=
  ∀ rest, Detached rest → scan (text ++ rest) = (scan rest).map (tokens ++ ·)

@[simp]
theorem detached_nil : Detached [] := by
  simp [Detached]

@[simp]
theorem detached_cons (c : Char) (text : List Char) :
    Detached (c :: text) ↔
      isPathChar c = false ∧ isNumeralChar c = false ∧ c ≠ '=' ∧ c ≠ '>' := by
  simp [Detached]

theorem Detached.append {text rest : List Char}
    (detached : Detached text) (restDetached : Detached rest) : Detached (text ++ rest) := by
  cases text with
  | nil =>
      exact restDetached
  | cons c others =>
      simpa using detached

theorem scan_eq (text : List Char) :
    scan text =
      match next? text with
      | .error fault => .error fault
      | .ok none => .ok []
      | .ok (some (token, rest)) => (scan rest).map (token :: ·) := by
  rw [scan]
  split
  · next fault taken =>
      simp only [taken]
  · next taken =>
      simp only [taken]
  · next token rest taken =>
      simp only [taken]

theorem scan_nil : scan [] = .ok [] := by
  rw [scan_eq]
  rfl

theorem scan_gap {c : Char} (gap : isGap c = true) (rest : List Char) :
    scan (c :: rest) = scan rest := by
  have sameNext : next? (c :: rest) = next? rest := by
    rw [next?, next?, List.dropWhile_cons_of_pos gap]
  rw [scan_eq, sameNext, ← scan_eq]

theorem scan_token {c : Char} {token : Token} {text rest : List Char}
    (noGap : isGap c = false) (taken : front c text = .ok (token, rest)) :
    scan (c :: text) = (scan rest).map (token :: ·) := by
  have taken : next? (c :: text) = .ok (some (token, rest)) := by
    rw [next?, List.dropWhile_cons_of_neg (by simp [noGap])]
    simp only [taken]
    rfl
  rw [scan_eq, taken]

/-- A character other than the backslash ends a string if it is the quote, and is in it if not. -/
theorem stringBody?_cons {quote c : Char} (noBackslash : c ≠ '\\') (text : List Char) :
    stringBody? quote (c :: text) =
      if c = quote then some ([], text)
      else (stringBody? quote text).map fun read => (c :: read.1, read.2) := by
  rw [stringBody?]
  · simpa using fun same _ => noBackslash same
  · simpa using fun _ _ same _ => noBackslash same

/-- A placeholder ends with its second colon, whatever stands behind it. -/
theorem front_placeholder {name : List Char} (nonempty : name ≠ [])
    (named : ∀ c ∈ name, isNameChar c = true) (rest : List Char) :
    front ':' (name ++ ':' :: rest) = .ok (.placeholder (String.ofList name), rest) := by
  have stops : ∀ c ∈ (':' :: rest).head?, isNameChar c = false := by
    intro c found
    obtain rfl : ':' = c := by simpa using found
    decide
  have filled : (String.ofList name).isEmpty = false := by
    simpa [String.isEmpty_iff] using nonempty
  simp only [front, readPlaceholder]
  rw [Text.takeWhile_append_of_stops named stops, Text.dropWhile_append_of_stops named stops]
  simp [filled]

theorem toNat_of_isAlpha {c : Char} (letter : c.isAlpha = true) :
    65 ≤ c.toNat ∧ c.toNat ≤ 90 ∨ 97 ≤ c.toNat ∧ c.toNat ≤ 122 := by
  have ranges :
      (decide (65 ≤ c.val ∧ c.val ≤ 90) || (97 ≤ c.val && c.val ≤ 122)) = true := letter
  simpa [UInt32.le_iff_toNat_le] using ranges

theorem toNat_of_isDigit {c : Char} (digit : c.isDigit = true) :
    48 ≤ c.toNat ∧ c.toNat ≤ 57 := by
  simpa [Char.isDigit, UInt32.le_iff_toNat_le] using digit

theorem isDigit_of_isNameStart {c : Char} (start : isNameStart c = true) : c.isDigit = false := by
  by_contra digit
  have digitBounds := toNat_of_isDigit (Bool.not_eq_false _ ▸ digit)
  simp only [isNameStart, Bool.or_eq_true, decide_eq_true_eq] at start
  rcases start with letter | rfl
  · have letterBounds := toNat_of_isAlpha letter
    omega
  · revert digitBounds
    decide

theorem isPathChar_of_isNameStart {c : Char} (start : isNameStart c = true) :
    isPathChar c = true := by
  simp only [isNameStart, Bool.or_eq_true] at start
  rcases start with letter | underscore
  · simp [isPathChar, isNameChar, Char.isAlphanum, letter]
  · simp [isPathChar, isNameChar, underscore]

theorem isBlank_of_isPathChar {c : Char} (kept : isPathChar c = true) :
    Text.isBlank c = false := by
  simp only [isPathChar, isNameChar, Char.isAlphanum, Bool.or_eq_true, decide_eq_true_eq] at kept
  rcases kept with ((letter | digit) | rfl) | rfl
  · have bounds := toNat_of_isAlpha letter
    simp [Text.isBlank]
    omega
  · have bounds := toNat_of_isDigit digit
    simp [Text.isBlank]
    omega
  · decide
  · decide

/-- A word begins with none of the characters that begin another token or stand in a gap. -/
theorem front_word {c : Char} (start : isNameStart c = true) (rest : List Char) :
    isGap c = false ∧ front c rest = .ok (readWord (c :: rest)) := by
  have different {other : Char} (noStart : isNameStart other = false) : c ≠ other := by
    rintro rfl
    rw [start] at noStart
    cases noStart
  constructor
  · simp only [isGap, Bool.or_eq_false_iff, decide_eq_false_iff_not]
    exact ⟨⟨⟨⟨different (by decide), different (by decide)⟩, different (by decide)⟩,
      different (by decide)⟩, different (by decide)⟩
  · unfold front
    split
    case h_16 =>
      rw [if_neg (by simp [isDigit_of_isNameStart start]), if_pos start]
    all_goals exact absurd start (by decide)

/-- A digit begins with none of the characters that begin another token. -/
theorem front_digit {c : Char} (digit : c.isDigit = true) (rest : List Char) :
    front c rest = readNumber [] (c :: rest) := by
  unfold front
  split
  case h_16 =>
    rw [if_pos digit]
  all_goals exact absurd digit (by decide)

namespace Spells

variable {text : List Char} {tokens : List Token}

theorem nil : Spells [] [] := by
  intro rest _
  simp only [List.nil_append]
  cases scan rest <;> rfl

theorem append {first second : List Char} {firstTokens secondTokens : List Token}
    (firstSpells : Spells first firstTokens) (secondSpells : Spells second secondTokens)
    (detached : Detached second) : Spells (first ++ second) (firstTokens ++ secondTokens) := by
  intro rest restDetached
  rw [List.append_assoc, firstSpells _ (detached.append restDetached),
    secondSpells rest restDetached]
  cases scan rest with
  | error fault =>
      rfl
  | ok others =>
      simp [Except.map]

/-- What the text of some tokens alone is cut into. -/
theorem scan_all (spells : Spells text tokens) : scan text = .ok tokens := by
  have alone := spells [] detached_nil
  rw [List.append_nil, scan_nil] at alone
  simpa [Except.map] using alone

theorem space (spells : Spells text tokens) : Spells (' ' :: text) tokens := by
  intro rest detached
  rw [List.cons_append, scan_gap (by decide), spells rest detached]

/-- A token that its first character is enough for, in front of a text. -/
theorem sign {c : Char} {token : Token} (noGap : isGap c = false)
    (taken : ∀ rest, front c rest = .ok (token, rest)) (spells : Spells text tokens) :
    Spells (c :: text) (token :: tokens) := by
  intro rest detached
  rw [List.cons_append, scan_token noGap (taken _), spells rest detached]
  cases scan rest <;> rfl

theorem openParen (spells : Spells text tokens) : Spells ('(' :: text) (.openParen :: tokens) :=
  spells.sign (by decide) fun _ => rfl

theorem closeParen (spells : Spells text tokens) :
    Spells (')' :: text) (.closeParen :: tokens) :=
  spells.sign (by decide) fun _ => rfl

theorem comma (spells : Spells text tokens) : Spells (',' :: text) (.comma :: tokens) :=
  spells.sign (by decide) fun _ => rfl

theorem comparator (comparator : Comparator) :
    Spells comparator.text.toList [.comparator comparator] := by
  intro rest detached
  have spelled {c : Char} {others : List Char} (noGap : isGap c = false)
      (taken : front c others = .ok (.comparator comparator, rest)) :
      scan (c :: others) = (scan rest).map ([.comparator comparator] ++ ·) := by
    rw [scan_token noGap taken]
    rfl
  -- a sign that a longer one begins with is a token of its own in front of a detached text
  have alone : front '<' rest = .ok (.comparator .lt, rest) ∧
      front '>' rest = .ok (.comparator .gt, rest) := by
    cases rest with
    | nil =>
        exact ⟨rfl, rfl⟩
    | cons d later =>
        obtain ⟨-, -, notEq, notGt⟩ := (detached_cons d later).mp detached
        simp [front, notEq, notGt]
  cases comparator
  case lt =>
    exact spelled (by decide) alone.1
  case gt =>
    exact spelled (by decide) alone.2
  all_goals exact spelled (by decide) rfl

/-- A word that another character may not go on with is one token. -/
theorem word {text : List Char} (start : ∃ c ∈ text.head?, isNameStart c = true)
    (kept : ∀ c ∈ text, isPathChar c = true) : Spells text [Token.ofWord text] := by
  obtain ⟨c, found, isStart⟩ := start
  obtain ⟨others, rfl⟩ := List.head?_eq_some_iff.mp found
  intro rest detached
  have stops : ∀ d ∈ rest.head?, isPathChar d = false := fun d isFirst => (detached d isFirst).1
  obtain ⟨noGap, taken⟩ := front_word isStart (others ++ rest)
  rw [← List.cons_append, readWord, Text.takeWhile_append_of_stops kept stops,
    Text.dropWhile_append_of_stops kept stops] at taken
  rw [List.cons_append, scan_token noGap taken]
  rfl

theorem placeholder {name : List Char} (nonempty : name ≠ [])
    (named : ∀ c ∈ name, isNameChar c = true) :
    Spells (':' :: name ++ [':']) [.placeholder (String.ofList name)] := by
  intro rest _
  rw [List.append_assoc, List.cons_append, List.singleton_append,
    scan_token (by decide) (front_placeholder nonempty named rest)]
  rfl

end Spells

end DocQuery.Lexer
