import Marty.Lib.Chain
import Marty.Lib.Dict
import Marty.Lib.Text

/-! `error_handling.py`: what `ErrorHandler.handle_error` counts, to whom it reports, and what the
wrappers around it do with the exception.  Exceptions are objects that may name each other as their
cause. -/

namespace Marty.Errors.ErrorHandling

open Lib Lib.Text

inductive ErrorSeverity
  | debug | info | warning | error | critical | fatal
  deriving DecidableEq

inductive ErrorCategory
  | validation | authentication | authorization | network | database | externalService
  | certificate | cryptography | protocol | configuration | resource | businessLogic | system
  | unknown
  deriving DecidableEq

def ErrorCategory.value : ErrorCategory → String
  | .validation => "validation"
  | .authentication => "authentication"
  | .authorization => "authorization"
  | .network => "network"
  | .database => "database"
  | .externalService => "external_service"
  | .certificate => "certificate"
  | .cryptography => "cryptography"
  | .protocol => "protocol"
  | .configuration => "configuration"
  | .resource => "resource"
  | .businessLogic => "business_logic"
  | .system => "system"
  | .unknown => "unknown"

inductive RecoveryAction
  | retry | fallback | circuitBreak | escalate | ignore | failFast
  deriving DecidableEq

/-- One of the objects that a chain of causes can go through.  An object that is no exception has
no attribute `__cause__`. -/
structure Object (n : Nat) where
  typeName : String
  text : String
  truthy : Bool := true
  cause : Option (Option (Fin n)) := some none

/-- The objects that are there. -/
abbrev Heap (n : Nat) := Fin n → Object n

section causes

variable {n : Nat} (heap : Heap n)

def line (id : Fin n) : String := (heap id).typeName ++ ": " ++ (heap id).text

/-- `while current_cause` -/
def goesOn (current : Option (Fin n)) : Option (Fin n) := current.filter fun id => (heap id).truthy

/-- The loop over the causes, for as many rounds; `none` when it has not ended by then. -/
def causeChain : Nat → Option (Fin n) → Option (List String)
  | 0, current => if goesOn heap current = none then some [] else none
  | k + 1, current =>
    match goesOn heap current with
    | none => some []
    | some id =>
      match (heap id).cause with
      | none => some [line heap id]
      | some next => (causeChain k next).map (line heap id :: ·)

def nextCause (id : Fin n) : Option (Fin n) := (heap id).cause.bind (goesOn heap)

/-- The loop never ends: the chain of causes comes back to one of them. -/
def Endless (cause : Option (Fin n)) : Prop :=
  ∃ id, goesOn heap cause = some id ∧ Chain.Cyclic (nextCause heap) id

variable {heap} {cause : Option (Fin n)} {id : Fin n} {k : Nat}

theorem causeChain_of_goesOn (h : goesOn heap cause = some id) :
    causeChain heap k cause = (Chain.follow (nextCause heap) k id).map (·.map (line heap)) := by
  induction k generalizing cause id with
  | zero => simp [causeChain, h, Chain.follow]
  | succ k ih =>
    simp only [causeChain, h, Chain.follow]
    cases hcause : (heap id).cause with
    | none => simp [nextCause, hcause]
    | some next =>
      have hnext : nextCause heap id = goesOn heap next := by simp [nextCause, hcause]
      rw [hnext]
      cases hgoes : goesOn heap next with
      | none => cases k <;> simp [causeChain, hgoes]
      | some id' =>
        dsimp only
        rw [ih hgoes]
        cases Chain.follow (nextCause heap) k id' <;> rfl

/-- A round for each object is enough where the loop ends at all. -/
theorem causeChain_eq_none_iff : causeChain heap n cause = none ↔ Endless heap cause := by
  cases h : goesOn heap cause with
  | none => cases n <;> simp [causeChain, h, Endless]
  | some id =>
    have hends : (∃ links, Chain.follow (nextCause heap) (Fintype.card (Fin n)) id = some links) ↔
        ¬ Chain.Cyclic (nextCause heap) id := Chain.follow_card_iff
    rw [Fintype.card_fin] at hends
    rw [causeChain_of_goesOn h, Option.map_eq_none_iff, Option.eq_none_iff_forall_ne_some]
    simp only [Endless, h, Option.some.injEq, exists_eq_left']
    rw [← not_exists, hends, not_not]

/-- Where it does not, no number of rounds is. -/
theorem endless_iff : Endless heap cause ↔ ∀ k, causeChain heap k cause = none := by
  refine ⟨?_, fun h => causeChain_eq_none_iff.mp (h n)⟩
  rintro ⟨id, hgoes, hcyclic⟩ k
  rw [causeChain_of_goesOn hgoes, Option.map_eq_none_iff, Option.eq_none_iff_forall_ne_some]
  exact fun links hlinks => Chain.not_cyclic_of_follow hlinks hcyclic

end causes

/-- A `MartyException`; its cause is handed to its constructor. -/
structure MartyException (n : Nat) where
  typeName : String
  message : String
  severity : ErrorSeverity := .error
  category : ErrorCategory := .unknown
  cause : Option (Fin n) := none
  isRetryable : Bool := false
  isUserError : Bool := false
  recoveryActions : List RecoveryAction := []

inductive Raised (n : Nat)
  | marty (e : MartyException n)
  | generic (typeName message : String)

structure ErrorContext where
  errorId : String
  timestamp : Int
  serviceName : String := ""
  operationName : String := ""
  userId : Option String := none
  requestId : Option String := none
  deriving DecidableEq

structure ErrorDetails where
  exceptionType : String
  message : String
  severity : ErrorSeverity
  category : ErrorCategory
  context : ErrorContext
  tracebackInfo : Option String
  causeChain : List String := []
  recoveryActions : List RecoveryAction := []
  isRetryable : Bool := false
  isUserError : Bool := false
  sensitiveData : Bool := false
  deriving DecidableEq

/-- `any(keyword in text for keyword in keywords)` -/
def anyIn (keywords : List String) (text : String) : Bool := keywords.any (contains · text)

/-- `lower` is `str.lower`. -/
def classifyException (lower : String → String) (typeName message : String) :
    ErrorCategory × ErrorSeverity × Bool :=
  let exceptionType := lower typeName
  let exceptionMessage := lower message
  if anyIn ["connection", "network", "timeout", "socket"] exceptionType then
    (.network, .error, true)
  else if anyIn ["value", "type", "attribute", "key"] exceptionType then
    (.validation, .warning, false)
  else if anyIn ["certificate", "crypto", "ssl", "tls"] exceptionMessage then
    (.certificate, .critical, false)
  else if anyIn ["database", "sql", "connection"] exceptionType then (.database, .error, true)
  else if contains "permission" exceptionType || contains "access" exceptionType then
    (.authorization, .error, false)
  else if anyIn ["memory", "resource", "limit"] exceptionType then (.resource, .critical, false)
  else (.unknown, .error, false)

def suggestRecoveryActions (category : ErrorCategory) (severity : ErrorSeverity) :
    List RecoveryAction :=
  if severity = .fatal then [.failFast]
  else
    match category with
    | .network => [.retry, .circuitBreak]
    | .externalService => [.retry, .fallback]
    | .validation | .authentication | .authorization => [.failFast]
    | .certificate | .cryptography => [.escalate]
    | .resource => [.circuitBreak, .escalate]
    | _ => [.retry]

/-- An error that reaches a handler. -/
structure Occurrence where
  n : Nat
  heap : Heap n
  exception : Raised n
  context : ErrorContext
  traceback : String

structure ErrorHandler where
  serviceName : String
  /-- `str.lower` -/
  lower : String → String

/-- What a handler remembers. -/
structure Statistics where
  errorCounts : List (String × Nat) := []
  lastErrors : List (String × Int) := []

namespace ErrorHandler

variable (handler : ErrorHandler) (o : Occurrence)

def handleMartyException (e : MartyException o.n) (context : ErrorContext) :
    Option ErrorDetails :=
  (causeChain o.heap o.n e.cause).map fun chain => {
    exceptionType := e.typeName
    message := e.message
    severity := e.severity
    category := e.category
    context := context
    tracebackInfo := some o.traceback
    causeChain := chain
    recoveryActions := e.recoveryActions
    isRetryable := e.isRetryable
    isUserError := e.isUserError }

def handleGenericException (typeName message : String) (context : ErrorContext) : ErrorDetails :=
  let (category, severity, isRetryable) := classifyException handler.lower typeName message
  { exceptionType := typeName
    message := message
    severity := severity
    category := category
    context := context
    tracebackInfo := some o.traceback
    recoveryActions := suggestRecoveryActions category severity
    isRetryable := isRetryable }

/-- `none` where the loop over the causes does not end. -/
def details : Option ErrorDetails :=
  let context := { o.context with serviceName := handler.serviceName }
  match o.exception with
  | .marty e => handleMartyException o e context
  | .generic typeName message => some (handler.handleGenericException o typeName message context)

end ErrorHandler

def errorKey (d : ErrorDetails) : String := d.category.value ++ ":" ++ d.exceptionType

def updateErrorStatistics (s : Statistics) (d : ErrorDetails) : Statistics where
  errorCounts :=
    Dict.set (errorKey d) ((s.errorCounts.lookup (errorKey d)).getD 0 + 1) s.errorCounts
  lastErrors := Dict.set (errorKey d) d.context.timestamp s.lastErrors

/-- How `handle_error` ends: it returns the details, or raises an `AttributeError`. -/
inductive Handled
  | returned (d : ErrorDetails)
  | attributeError
  deriving DecidableEq

/-- The log message begins with `error_details.error_id`, an attribute that `ErrorDetails` does not
have; the callbacks come after it, and what they raise is logged. -/
def handleError (handler : ErrorHandler) (s : Statistics) (o : Occurrence)
    (suppressLogging : Bool) : Option (Statistics × Option ErrorDetails × Handled) :=
  (handler.details o).map fun d =>
    let s := updateErrorStatistics s d
    if suppressLogging then (s, some d, .returned d) else (s, none, .attributeError)

/-- The ways in which an error gets to a handler. -/
inductive Wrapper
  | handleErrors (suppressLogging reraise : Bool)
  | errorContext
  | safeExecute (suppressErrors : Bool)
  | handleGrpcError

namespace Wrapper

def suppressLogging : Wrapper → Bool
  | .handleErrors suppressLogging _ => suppressLogging
  | .errorContext => false
  | .safeExecute suppressErrors => suppressErrors
  | .handleGrpcError => false

end Wrapper

/-- What comes out of a wrapper: the exception that went in, an `AttributeError` in its place, the
details or the default as a value, or a status set on the gRPC context. -/
inductive Outcome
  | original
  | attributeError
  | returned (d : ErrorDetails)
  | default
  | status (d : ErrorDetails)
  deriving DecidableEq

def Wrapper.outcome : Wrapper → Handled → Outcome
  | _, .attributeError => .attributeError
  | .handleErrors _ reraise, .returned d => if reraise then .original else .returned d
  | .errorContext, .returned _ => .original
  | .safeExecute suppressErrors, .returned _ => if suppressErrors then .default else .original
  | .handleGrpcError, .returned d => .status d

/-- The statistics, the details that the callbacks have been called with, and what has come out of
the wrappers. -/
structure Run where
  statistics : Statistics := {}
  notified : List ErrorDetails := []
  outcomes : List Outcome := []

def Run.step (handler : ErrorHandler) (run : Run) (use : Wrapper × Occurrence) : Option Run :=
  (handleError handler run.statistics use.2 use.1.suppressLogging).map fun (s, notified, handled) =>
    { statistics := s
      notified := run.notified ++ notified.toList
      outcomes := run.outcomes ++ [use.1.outcome handled] }

/-- The uses of a handler one after the other, up to one that does not end. -/
def Run.run (handler : ErrorHandler) : Run → List (Wrapper × Occurrence) → Option Run
  | run, [] => some run
  | run, use :: uses => (run.step handler use).bind fun run => run.run handler uses

/-- The loop over the causes of the exception does not end. -/
def Occurrence.Endless (o : Occurrence) : Prop :=
  match o.exception with
  | .marty e => ErrorHandling.Endless o.heap e.cause
  | .generic _ _ => False

/-- The details of the errors, in their order. -/
def allDetails (handler : ErrorHandler) (uses : List (Wrapper × Occurrence)) : List ErrorDetails :=
  uses.filterMap fun use => handler.details use.2

/-- What comes out of a use whose logging is suppressed is as meant; anything else is an
`AttributeError`. -/
def outcomeOf (handler : ErrorHandler) (use : Wrapper × Occurrence) : Outcome :=
  match handler.details use.2 with
  | some d => use.1.outcome (if use.1.suppressLogging then .returned d else .attributeError)
  | none => .attributeError

/-- The errors with a key are counted, whatever comes out, and the time of the last one is kept; the
callbacks are called with those alone whose logging is suppressed. -/
structure Accounted (handler : ErrorHandler) (uses : List (Wrapper × Occurrence)) (run : Run) :
    Prop where
  counts : ∀ key, (run.statistics.errorCounts.lookup key).getD 0 =
    (allDetails handler uses).countP (errorKey · = key)
  last : ∀ key, run.statistics.lastErrors.lookup key =
    ((allDetails handler uses).filter (errorKey · = key)).getLast?.map (·.context.timestamp)
  notified : run.notified = allDetails handler (uses.filter (·.1.suppressLogging))
  outcomes : run.outcomes = uses.map (outcomeOf handler)

section run

variable {handler : ErrorHandler} {o : Occurrence} {s : Statistics} {d : ErrorDetails}
  {use : Wrapper × Occurrence} {uses : List (Wrapper × Occurrence)} {run run' : Run}

theorem details_eq_none_iff : handler.details o = none ↔ o.Endless := by
  unfold ErrorHandler.details Occurrence.Endless
  cases o.exception with
  | marty e => simp [ErrorHandler.handleMartyException, causeChain_eq_none_iff]
  | generic typeName message => simp

theorem counts_updateErrorStatistics (key : String) :
    ((updateErrorStatistics s d).errorCounts.lookup key).getD 0 =
      (s.errorCounts.lookup key).getD 0 + if errorKey d = key then 1 else 0 := by
  by_cases h : errorKey d = key
  · subst h
    simp [updateErrorStatistics, Dict.lookup_set_self]
  · simp [updateErrorStatistics, Dict.lookup_set_of_ne (Ne.symm h), h]

theorem last_updateErrorStatistics (key : String) :
    (updateErrorStatistics s d).lastErrors.lookup key =
      if errorKey d = key then some d.context.timestamp else s.lastErrors.lookup key := by
  by_cases h : errorKey d = key
  · subst h
    simp [updateErrorStatistics, Dict.lookup_set_self]
  · simp [updateErrorStatistics, Dict.lookup_set_of_ne (Ne.symm h), h]

theorem step_eq_some : run.step handler use = some run' ↔
    ∃ d, handler.details use.2 = some d ∧ run' = {
      statistics := updateErrorStatistics run.statistics d
      notified := run.notified ++ if use.1.suppressLogging then [d] else []
      outcomes := run.outcomes ++ [outcomeOf handler use] } := by
  unfold Run.step handleError outcomeOf
  cases handler.details use.2 with
  | none => simp
  | some d => cases use.1.suppressLogging <;> simp [eq_comm]

theorem accounted_step (h : Accounted handler uses run) (hstep : run.step handler use = some run') :
    Accounted handler (uses ++ [use]) run' := by
  obtain ⟨d, hd, rfl⟩ := step_eq_some.mp hstep
  have hall : allDetails handler (uses ++ [use]) = allDetails handler uses ++ [d] := by
    simp [allDetails, hd]
  constructor
  case counts =>
    intro key
    rw [counts_updateErrorStatistics, h.counts, hall, List.countP_append, List.countP_singleton]
    simp
  case last =>
    intro key
    rw [last_updateErrorStatistics, h.last, hall, List.filter_append]
    by_cases hkey : errorKey d = key <;> simp [hkey]
  case notified =>
    rw [h.notified, List.filter_append]
    cases hsuppress : use.1.suppressLogging <;> simp [allDetails, hsuppress, hd]
  case outcomes => rw [h.outcomes, List.map_append, List.map_singleton]

theorem accounted_run {done : List (Wrapper × Occurrence)} (h : Accounted handler done run)
    (hrun : run.run handler uses = some run') : Accounted handler (done ++ uses) run' := by
  induction uses generalizing done run with
  | nil =>
    obtain rfl := Option.some.inj hrun
    rwa [List.append_nil]
  | cons use uses ih =>
    obtain ⟨next, hstep, hrun⟩ := Option.bind_eq_some_iff.mp hrun
    rw [List.append_cons]
    exact ih (accounted_step h hstep) hrun

theorem accounted_new : Accounted handler [] {} where
  counts _ := rfl
  last _ := rfl
  notified := rfl
  outcomes := rfl

theorem run_eq_none_iff : run.run handler uses = none ↔ ∃ use ∈ uses, use.2.Endless := by
  induction uses generalizing run with
  | nil => simp [Run.run]
  | cons use uses ih =>
    rw [Run.run, Option.bind_eq_none_iff]
    simp only [ih, List.mem_cons, exists_eq_or_imp, ← @details_eq_none_iff handler]
    cases hd : handler.details use.2 with
    | none => simp [Run.step, handleError, hd]
    | some d => simp [Run.step, handleError, hd]

end run

theorem outcomeOf_ne_status (handler : ErrorHandler) (use : Wrapper × Occurrence)
    (d : ErrorDetails) : outcomeOf handler use ≠ .status d := by
  unfold outcomeOf
  split
  · obtain ⟨wrapper, o⟩ := use
    cases wrapper with
    | handleErrors suppress reraise =>
      cases suppress <;> cases reraise <;> simp [Wrapper.suppressLogging, Wrapper.outcome]
    | safeExecute suppress =>
      cases suppress <;> simp [Wrapper.suppressLogging, Wrapper.outcome]
    | errorContext | handleGrpcError => simp [Wrapper.suppressLogging, Wrapper.outcome]
  · simp

/-- Whatever a handler is used for, and in whatever order, until a chain of causes comes back to
one of them: then that use does not end.  No gRPC call is ever given a status. -/
theorem uses_accounted (handler : ErrorHandler) (uses : List (Wrapper × Occurrence)) :
    (Run.run handler {} uses = none ↔ ∃ use ∈ uses, use.2.Endless) ∧
      ∀ run, Run.run handler {} uses = some run → Accounted handler uses run ∧
        ∀ d, .status d ∉ run.outcomes := by
  refine ⟨run_eq_none_iff, fun run hrun => ?_⟩
  have haccounted : Accounted handler uses run := accounted_run accounted_new hrun
  refine ⟨haccounted, fun d hd => ?_⟩
  rw [haccounted.outcomes] at hd
  obtain ⟨use, -, hstatus⟩ := List.mem_map.mp hd
  exact outcomeOf_ne_status handler use d hstatus

end Marty.Errors.ErrorHandling
