import DocQuery.QueryFault

/-!
# Cutting a text into tokens

`next?` takes one token from the front of a text, always the longest one of its kind, and
`scan` takes tokens to the end. Every token uses up a character, which is why `scan` ends.
-/

namespace DocQuery.Lexer

def isGap (c : Char) : Bool :=
  c = ' ' || c = '\t' || c = '\n' || c = '\x0c' || c = '\r'

/-- The characters that an identifier may begin with. -/
def isNameStart (c : Char) : Bool :=
  c.isAlpha || c = '_'

def isNameChar (c : Char) : Bool :=
  c.isAlphanum || c = '_'

/-- The characters of an identifier, which may be a path with points. -/
def isPathChar (c : Char) : Bool :=
  isNameChar c || c = '.'

/-- The characters of a number after its sign. -/
def isNumeralChar (c : Char) : Bool :=
  c.isDigit || c = '.' || c = 'e' || c = 'E' || c = '+'

/-- A placeholder, after its first colon. -/
def readPlaceholder (text : List Char) : Except SyntaxFault (Token × List Char) :=
  let name := String.ofList (text.takeWhile isNameChar)
  if name.isEmpty then .error .emptyPlaceholder
  else
    match text.dropWhile isNameChar with
    | ':' :: rest => .ok (.placeholder name, rest)
    | _ => .error (.unclosedPlaceholder name)

/-- The characters of a string up to its closing quote. A backslash makes the next character
an ordinary one. -/
def stringBody? (quote : Char) : List Char → Option (List Char × List Char)
  | [] => none
  | ['\\'] => none
  | '\\' :: c :: rest => (stringBody? quote rest).map fun (body, rest) => (c :: body, rest)
  | c :: rest =>
      if c = quote then some ([], rest)
      else (stringBody? quote rest).map fun (body, rest) => (c :: body, rest)

/-- A string, after its opening quote. -/
def readString (quote : Char) (text : List Char) : Except SyntaxFault (Token × List Char) :=
  match stringBody? quote text with
  | some (body, rest) => .ok (.string (String.ofList body), rest)
  | none => .error .unclosedString

/-- A number; `sign` is the minus in front of it, if there is one. -/
def readNumber (sign text : List Char) : Except SyntaxFault (Token × List Char) :=
  let spelling := sign ++ text.takeWhile isNumeralChar
  match Number.ofStrict? spelling with
  | some value =>
      .ok (.number (String.ofList spelling) value, text.dropWhile isNumeralChar)
  | none => .error (.invalidNumber (String.ofList spelling))

def readWord (text : List Char) : Token × List Char :=
  (Token.ofWord (text.takeWhile isPathChar), text.dropWhile isPathChar)

/-- The token at the front of a text that begins with no gap. -/
def front (first : Char) (rest : List Char) : Except SyntaxFault (Token × List Char) :=
  match first, rest with
  | ':', _ => readPlaceholder rest
  | '\'', _ => readString '\'' rest
  | '"', _ => readString '"' rest
  | '=', _ => .ok (.comparator .eq, rest)
  | '!', '=' :: rest => .ok (.comparator .ne, rest)
  | '!', _ => .error .loneExclamation
  | '<', '=' :: rest => .ok (.comparator .le, rest)
  | '<', '>' :: rest => .ok (.comparator .ne, rest)
  | '<', _ => .ok (.comparator .lt, rest)
  | '>', '=' :: rest => .ok (.comparator .ge, rest)
  | '>', _ => .ok (.comparator .gt, rest)
  | '(', _ => .ok (.openParen, rest)
  | ')', _ => .ok (.closeParen, rest)
  | ',', _ => .ok (.comma, rest)
  | '-', _ => readNumber ['-'] rest
  | _, _ =>
      if first.isDigit then readNumber [] (first :: rest)
      else if isNameStart first then .ok (readWord (first :: rest))
      else .error (.unknownCharacter first)

/-- The first token of a text and what follows it, or nothing at the end. -/
def next? (text : List Char) : Except SyntaxFault (Option (Token × List Char)) :=
  match text.dropWhile isGap with
  | [] => .ok none
  | first :: rest => (front first rest).map some

theorem length_dropWhile_le (keep : Char → Bool) (text : List Char) :
    (text.dropWhile keep).length ≤ text.length :=
  (List.dropWhile_sublist keep).length_le

/-- A text that begins with a kept character gets shorter when those are dropped. -/
theorem length_dropWhile_cons_lt {keep : Char → Bool} {first : Char} (kept : keep first = true)
    (rest : List Char) : ((first :: rest).dropWhile keep).length < (first :: rest).length := by
  have shorter := length_dropWhile_le keep rest
  simp only [List.dropWhile_cons, kept, if_true, List.length_cons]
  omega

theorem stringBody?_length {quote : Char} {text body rest : List Char}
    (found : stringBody? quote text = some (body, rest)) : rest.length < text.length := by
  fun_induction stringBody? quote text generalizing body with
  | case1 => simp at found
  | case2 => simp at found
  | case3 c tail inductionHypothesis =>
      obtain ⟨⟨inner, after⟩, read, same⟩ := Option.map_eq_some_iff.1 found
      simp only [Prod.mk.injEq] at same
      obtain ⟨-, rfl⟩ := same
      have shorter := inductionHypothesis read
      simp only [List.length_cons]
      omega
  | case4 tail =>
      simp only [Option.some.injEq, Prod.mk.injEq] at found
      simp [← found.2]
  | case5 c tail _ _ _ inductionHypothesis =>
      obtain ⟨⟨inner, after⟩, read, same⟩ := Option.map_eq_some_iff.1 found
      simp only [Prod.mk.injEq] at same
      obtain ⟨-, rfl⟩ := same
      have shorter := inductionHypothesis read
      simp only [List.length_cons]
      omega

theorem readPlaceholder_length {text rest : List Char} {token : Token}
    (read : readPlaceholder text = .ok (token, rest)) : rest.length ≤ text.length := by
  have shorter := length_dropWhile_le isNameChar text
  unfold readPlaceholder at read
  dsimp only at read
  split at read
  · cases read
  · split at read
    · next tail dropped =>
        cases read
        rw [dropped, List.length_cons] at shorter
        omega
    · cases read

theorem readString_length {quote : Char} {text rest : List Char} {token : Token}
    (read : readString quote text = .ok (token, rest)) : rest.length ≤ text.length := by
  unfold readString at read
  split at read
  · next body tail found =>
      cases read
      exact Nat.le_of_lt (stringBody?_length found)
  · cases read

theorem readNumber_rest {sign text rest : List Char} {token : Token}
    (read : readNumber sign text = .ok (token, rest)) : rest = text.dropWhile isNumeralChar := by
  unfold readNumber at read
  dsimp only at read
  split at read
  · cases read; rfl
  · cases read

/-- A token uses up its first character. -/
theorem front_length {first : Char} {rest after : List Char} {token : Token}
    (read : front first rest = .ok (token, after)) : after.length ≤ rest.length := by
  unfold front at read
  split at read
  case h_1 => exact readPlaceholder_length read
  case h_2 => exact readString_length read
  case h_3 => exact readString_length read
  case h_15 => exact readNumber_rest read ▸ length_dropWhile_le isNumeralChar _
  case h_16 =>
    split at read
    · next digit =>
        have kept : isNumeralChar first = true := by simp [isNumeralChar, digit]
        have shorter := length_dropWhile_cons_lt kept rest
        rw [← readNumber_rest read, List.length_cons] at shorter
        omega
    · split at read
      · next start =>
          cases read
          have named : isPathChar first = true := by
            simp only [isNameStart, Bool.or_eq_true] at start
            rcases start with letter | underscore
            · simp [isPathChar, isNameChar, Char.isAlphanum, letter]
            · simp [isPathChar, isNameChar, underscore]
          have shorter := length_dropWhile_cons_lt named rest
          simp only [List.length_cons] at shorter
          omega
      · cases read
  all_goals cases read <;> simp

/-- What follows the first token is shorter than the text. -/
theorem next?_length {text rest : List Char} {token : Token}
    (read : next? text = .ok (some (token, rest))) : rest.length < text.length := by
  have dropped := length_dropWhile_le isGap text
  unfold next? at read
  split at read
  · cases read
  · next first tail gapless =>
      cases taken : front first tail with
      | error fault => rw [taken] at read; cases read
      | ok pair =>
          rw [taken] at read
          cases read
          have shorter := front_length taken
          rw [gapless, List.length_cons] at dropped
          omega

def scan (text : List Char) : Except SyntaxFault (List Token) :=
  match taken : next? text with
  | .error fault => .error fault
  | .ok none => .ok []
  | .ok (some (token, rest)) =>
      have := next?_length taken
      (scan rest).map (token :: ·)
termination_by text.length

end DocQuery.Lexer
