import Mathlib.Init

/-! Exceptions as far as the resilience code looks at them. -/

namespace Marty.Resilience.Errors

inductive StatusCode
  | ok | cancelled | unknown | invalidArgument | deadlineExceeded | notFound | alreadyExists
  | permissionDenied | resourceExhausted | failedPrecondition | aborted | outOfRange | unimplemented
  | internal | unavailable | dataLoss | unauthenticated
  deriving DecidableEq

def StatusCode.name : StatusCode → String
  | .ok => "OK"
  | .cancelled => "CANCELLED"
  | .unknown => "UNKNOWN"
  | .invalidArgument => "INVALID_ARGUMENT"
  | .deadlineExceeded => "DEADLINE_EXCEEDED"
  | .notFound => "NOT_FOUND"
  | .alreadyExists => "ALREADY_EXISTS"
  | .permissionDenied => "PERMISSION_DENIED"
  | .resourceExhausted => "RESOURCE_EXHAUSTED"
  | .failedPrecondition => "FAILED_PRECONDITION"
  | .aborted => "ABORTED"
  | .outOfRange => "OUT_OF_RANGE"
  | .unimplemented => "UNIMPLEMENTED"
  | .internal => "INTERNAL"
  | .unavailable => "UNAVAILABLE"
  | .dataLoss => "DATA_LOSS"
  | .unauthenticated => "UNAUTHENTICATED"

inductive ErrorCategory
  | validation | notFound | conflict | unauthorized | transient | internal
  deriving DecidableEq

def ErrorCategory.value : ErrorCategory → String
  | .validation => "validation"
  | .notFound => "not_found"
  | .conflict => "conflict"
  | .unauthorized => "unauthorized"
  | .transient => "transient"
  | .internal => "internal"

/-- An exception: the names of its class and of those it inherits from, its code when it has the
method `code`, and its category when it is a `MartyError`. -/
structure Error where
  typeName : String
  bases : List String := []
  code : Option StatusCode := none
  category : Option ErrorCategory := none

def Error.isInstance (e : Error) (classes : List String) : Bool :=
  (e.typeName :: e.bases).any (· ∈ classes)

def typeError : Error where
  typeName := "TypeError"

def runtimeError : Error where
  typeName := "RuntimeError"

def exceptionIsTransient (e : Error) : Bool :=
  e.isInstance ["TransientBackendError"] || e.category = some .transient

/-- `DefaultErrorClassifier` -/
def defaultTrips (e : Error) : Bool :=
  !e.isInstance ["ValidationError", "UnauthorizedError", "ValueError"]

end Marty.Resilience.Errors
