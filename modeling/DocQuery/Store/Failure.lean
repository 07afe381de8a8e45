/-!
# Failures of a store

A store that cannot answer says why by a code and a message. A cause may be attached.
-/

namespace DocQuery

inductive FailureCode where
  | resourceNotFound
  | throttled
  | validation
  | transport
  | internal
deriving DecidableEq, Repr

namespace FailureCode

def text : FailureCode → String
  | .resourceNotFound => "ResourceNotFound"
  | .throttled => "Throttled"
  | .validation => "Validation"
  | .transport => "Transport"
  | .internal => "Internal"

/-- All codes, each once. -/
def all : List FailureCode :=
  [.resourceNotFound, .throttled, .validation, .transport, .internal]

def ofText? (name : String) : Option FailureCode :=
  all.find? fun code => code.text == name

end FailureCode

structure StoreFailure where
  code : FailureCode
  message : String
  cause : Option String
deriving DecidableEq

namespace StoreFailure

def ofMessage (code : FailureCode) (message : String) : StoreFailure :=
  ⟨code, message, none⟩

def isThrottling (failure : StoreFailure) : Bool :=
  failure.code == .throttled

/-- The text of a failure. The cause is not part of it. -/
def text (failure : StoreFailure) : String :=
  "BackendError(" ++ failure.code.text ++ "): " ++ failure.message

end StoreFailure

end DocQuery
