import DocQuery.Text.Blank
import DocQuery.Word

/-!
# Settings

Every setting has a default, and a variable of the environment may replace it. Times are in
milliseconds. A variable whose text is no value of the setting leaves the default, except that
any text of a switch other than the words for true is false.
-/

namespace DocQuery

structure PagingSettings where
  maxRounds : Nat
  firstCallBudget : Nat
  continuationBudget : Nat
  backoff : Nat
  backoffEvery : Nat
  pageSize : Option Nat
deriving DecidableEq

structure Settings where
  defaultLimit : Nat
  consistentRead : Bool
  strictErrors : Bool
  paging : PagingSettings
deriving DecidableEq

namespace PagingSettings

def default : PagingSettings :=
  { maxRounds := 6
    firstCallBudget := 20000
    continuationBudget := 25000
    backoff := 200
    backoffEvery := 2
    pageSize := none }

end PagingSettings

namespace Settings

def default : Settings :=
  { defaultLimit := 20
    consistentRead := false
    strictErrors := false
    paging := PagingSettings.default }

/-- A natural number of sixty-four bits: decimal digits, with an optional plus sign. -/
def unsigned? (text : List Char) : Option Nat :=
  let digits :=
    match text with
    | '+' :: rest => rest
    | _ => text
  if digits.isEmpty || !digits.all Char.isDigit then none
  else
    let value := Nat.ofDigitChars 10 digits 0
    if value ≤ Word.greatestNat64 then some value else none

def trueWords : List String :=
  ["1", "true", "yes", "TRUE", "YES"]

/-- An environment: the texts of its variables by name. The names of those that matter begin
with a common stem. -/
structure Environment where
  stem : String
  lookup : String → Option String

def Environment.text? (environment : Environment) (name : String) : Option (List Char) :=
  (environment.lookup (environment.stem ++ name)).map String.toList

def Environment.number (environment : Environment) (name : String) (missing : Nat) : Nat :=
  (((environment.text? name).map Text.trim).bind unsigned?).getD missing

def Environment.switch (environment : Environment) (name : String) (missing : Bool) : Bool :=
  ((environment.lookup (environment.stem ++ name)).map trueWords.contains).getD missing

/-- A positive number, without blank characters around it. -/
def Environment.positive? (environment : Environment) (name : String) : Option Nat :=
  ((environment.text? name).bind unsigned?).filter fun number => 0 < number

def ofEnvironment (environment : Environment) : Settings :=
  let missing := default
  { defaultLimit := environment.number "DEFAULT_LIMIT" missing.defaultLimit
    consistentRead := environment.switch "CONSISTENT_READ" missing.consistentRead
    strictErrors := environment.switch "STRICT_ERRORS" missing.strictErrors
    paging :=
      { maxRounds := environment.number "MAX_ROUNDS" missing.paging.maxRounds
        firstCallBudget :=
          environment.number "FIRST_CALL_BUDGET_MS" missing.paging.firstCallBudget
        continuationBudget :=
          environment.number "CONTINUATION_BUDGET_MS" missing.paging.continuationBudget
        backoff := environment.number "BACKOFF_MS" missing.paging.backoff
        backoffEvery := environment.number "BACKOFF_EVERY" missing.paging.backoffEvery
        pageSize := environment.positive? "PAGE_SIZE" } }

end Settings

end DocQuery
