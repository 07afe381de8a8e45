import DocQuery.Json.Basic

/-!
# Reading JSON text

The whole text is one value with white space around tokens. Of two fields of one name in an
object the last one counts. Strings hold no unpaired surrogate and no bare control character.
-/

namespace DocQuery.Json

def isSpace (c : Char) : Bool :=
  c = ' ' || c = '\t' || c = '\n' || c = '\r'

/-- The text after leading white space. -/
def skipSpace (text : List Char) : List Char :=
  text.dropWhile isSpace

def hexDigit? (c : Char) : Option Nat :=
  if '0' ≤ c ∧ c ≤ '9' then some (c.toNat - '0'.toNat)
  else if 'a' ≤ c ∧ c ≤ 'f' then some (c.toNat - 'a'.toNat + 10)
  else if 'A' ≤ c ∧ c ≤ 'F' then some (c.toNat - 'A'.toNat + 10)
  else none

/-- The sixteen-bit unit that four hexadecimal digits write. -/
def unit? : List Char → Option (Nat × List Char)
  | a :: b :: c :: d :: rest => do
      let value := (((← hexDigit? a) * 16 + (← hexDigit? b)) * 16 + (← hexDigit? c)) * 16
        + (← hexDigit? d)
      return (value, rest)
  | _ => none

/-- The character of a `\u` escape, after the `u`. A high surrogate needs the escape of a low
one behind it. -/
def codePoint? (text : List Char) : Option (Char × List Char) := do
  let (first, rest) ← unit? text
  if 0xD800 ≤ first ∧ first < 0xDC00 then
    match rest with
    | '\\' :: 'u' :: more => do
        let (second, rest) ← unit? more
        if 0xDC00 ≤ second ∧ second < 0xE000 then
          return (Char.ofNat (0x10000 + (first - 0xD800) * 0x400 + (second - 0xDC00)), rest)
        else
          none
    | _ => none
  else if 0xDC00 ≤ first ∧ first < 0xE000 then
    none
  else
    return (Char.ofNat first, rest)

def shortEscape? (c : Char) : Option Char :=
  match c with
  | '"' => some '"'
  | '\\' => some '\\'
  | '/' => some '/'
  | 'b' => some '\x08'
  | 'f' => some '\x0c'
  | 'n' => some '\n'
  | 'r' => some '\r'
  | 't' => some '\t'
  | _ => none

/-- The characters up to the closing quotation mark. Each step uses up a character, so the
length of the text is fuel enough. -/
def stringBody? : Nat → List Char → Option (List Char × List Char)
  | 0, _ => none
  | fuel + 1, text =>
      match text with
      | [] => none
      | '"' :: rest => some ([], rest)
      | '\\' :: 'u' :: rest => do
          let (c, rest) ← codePoint? rest
          let (body, rest) ← stringBody? fuel rest
          return (c :: body, rest)
      | '\\' :: c :: rest => do
          let c ← shortEscape? c
          let (body, rest) ← stringBody? fuel rest
          return (c :: body, rest)
      | c :: rest =>
          if c.toNat < 0x20 then none
          else do
            let (body, rest) ← stringBody? fuel rest
            return (c :: body, rest)

/-- The string after its opening quotation mark. -/
def string? (text : List Char) : Option (String × List Char) :=
  (stringBody? (text.length + 1) text).map fun (body, rest) => (String.ofList body, rest)

def isNumberChar (c : Char) : Bool :=
  c.isDigit || c = '-' || c = '+' || c = '.' || c = 'e' || c = 'E'

/-- The text after `word`, if it begins with it. -/
def after? (word : String) (text : List Char) : Option (List Char) :=
  if word.toList.isPrefixOf text then some (text.drop word.length) else none

mutual

/-- One value at the start of the text, and what follows it. Every call below the first one
works on a shorter text, so twice its length is fuel enough. -/
def value? : Nat → List Char → Option (Json × List Char)
  | 0, _ => none
  | fuel + 1, text =>
      match skipSpace text with
      | '"' :: rest => (string? rest).map fun (value, rest) => (.string value, rest)
      | '[' :: rest =>
          match skipSpace rest with
          | ']' :: rest => some (.array [], rest)
          | rest => (items? fuel rest).map fun (items, rest) => (.array items, rest)
      | '\x7b' :: rest =>
          match skipSpace rest with
          | '\x7d' :: rest => some (.object [], rest)
          | rest =>
              (fields? fuel rest).map fun (fields, rest) =>
                (.object (Dictionary.ofList fields), rest)
      | 'n' :: rest => (after? "ull" rest).map fun rest => (.null, rest)
      | 't' :: rest => (after? "rue" rest).map fun rest => (.bool true, rest)
      | 'f' :: rest => (after? "alse" rest).map fun rest => (.bool false, rest)
      | rest => do
          let number ← Number.ofStrict? (rest.takeWhile isNumberChar)
          return (.number number, rest.dropWhile isNumberChar)

/-- The items of an array up to its closing bracket. -/
def items? : Nat → List Char → Option (List Json × List Char)
  | 0, _ => none
  | fuel + 1, text => do
      let (item, rest) ← value? fuel text
      match skipSpace rest with
      | ']' :: rest => return ([item], rest)
      | ',' :: rest =>
          let (items, rest) ← items? fuel rest
          return (item :: items, rest)
      | _ => none

/-- The fields of an object up to its closing brace. -/
def fields? : Nat → List Char → Option (List (String × Json) × List Char)
  | 0, _ => none
  | fuel + 1, text =>
      match skipSpace text with
      | '"' :: rest => do
          let (name, rest) ← string? rest
          match skipSpace rest with
          | ':' :: rest =>
              let (value, rest) ← value? fuel rest
              match skipSpace rest with
              | '\x7d' :: rest => return ([(name, value)], rest)
              | ',' :: rest =>
                  let (fields, rest) ← fields? fuel rest
                  return ((name, value) :: fields, rest)
              | _ => none
          | _ => none
      | _ => none

end

def parse? (text : String) : Option Json :=
  match value? (2 * text.length + 1) text.toList with
  | some (value, rest) => if (skipSpace rest).isEmpty then some value else none
  | none => none

end DocQuery.Json
