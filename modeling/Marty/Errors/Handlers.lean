import Mathlib.Data.List.Basic

/-! The two wrappers of `errors.handlers` around a body that may raise: the decorator of
`ErrorHandler.handle_common_exceptions` and the context manager `ErrorContext`.  What they log is
left out. -/

universe u v

namespace Marty.Errors.Handlers

/-- The classes that the wrappers tell apart, and those between them. -/
inductive ExceptionClass
  | baseException | exception | osError | connectionError | timeoutError | fileNotFoundError
  | permissionError | valueError | typeError | martyError
  deriving DecidableEq

namespace ExceptionClass

def base : ExceptionClass → Option ExceptionClass
  | .baseException => none
  | .exception => some .baseException
  | .osError | .valueError | .typeError | .martyError => some .exception
  | .connectionError | .timeoutError | .fileNotFoundError | .permissionError => some .osError

end ExceptionClass

/-- An exception: those of the classes that it is an instance of, and its `str`, which may raise
as well. -/
structure BaseException (ε : Type u) where
  classes : List ExceptionClass
  base_mem : ∀ c ∈ classes, ∀ b ∈ c.base, b ∈ classes
  baseException_mem : .baseException ∈ classes
  str : Except ε String

/-- The subclasses of `MartyError` that the wrappers raise. -/
inductive MartyErrorClass
  | network | validation | configuration | service
  deriving DecidableEq

/-- How a wrapper ends: with the value of the body, as if nothing had been raised, with the
exception of the body, with an error chained to it, or with the exception of its `str`. -/
inductive Outcome (ε : Type u) (α : Type v)
  | returned (value : α)
  | suppressed
  | propagated
  | raised (cls : MartyErrorClass) (message : String)
  | failed (e : ε)
  deriving DecidableEq

variable {ε : Type u} {α : Type v}

namespace BaseException

def isInstance (e : BaseException ε) (classes : List ExceptionClass) : Bool :=
  classes.any (· ∈ e.classes)

/-- `str(e)` is called for the message in any case. -/
def report (e : BaseException ε) (reraise : Bool) (cls : MartyErrorClass) (context : String) :
    Outcome ε α :=
  match e.str with
  | .error x => .failed x
  | .ok text => if reraise then .raised cls (context ++ ": " ++ text) else .suppressed

/-- `str(e)` is called only for the error that is raised. -/
def convert (e : BaseException ε) (reraise : Bool) (cls : MartyErrorClass) (context : String) :
    Outcome ε α :=
  if reraise then
    match e.str with
    | .error x => .failed x
    | .ok text => .raised cls (context ++ ": " ++ text)
  else .suppressed

end BaseException

/-- The `except` clauses of `handle_common_exceptions`, around a function of the given name. -/
def handleCommonExceptions (reraise : Bool) (name : String) :
    Except (BaseException ε) α → Outcome ε α
  | .ok value => .returned value
  | .error e =>
    if e.isInstance [.martyError] then if reraise then .propagated else .suppressed
    else if e.isInstance [.connectionError, .timeoutError] then
      e.report reraise .network ("Network error in " ++ name)
    else if e.isInstance [.valueError, .typeError] then
      e.report reraise .validation ("Validation error in " ++ name)
    else if e.isInstance [.fileNotFoundError] then
      e.report reraise .configuration ("File not found in " ++ name)
    else if e.isInstance [.permissionError] then
      e.report reraise .configuration ("Permission denied in " ++ name)
    else if e.isInstance [.exception] then
      e.report reraise .service ("Unexpected error in " ++ name)
    else .propagated

/-- `ErrorContext.__exit__` after the body; what is neither raised nor suppressed goes on. -/
def errorContext (reraise : Bool) (operationName : String) :
    Except (BaseException ε) α → Outcome ε α
  | .ok value => .returned value
  | .error e =>
    if e.isInstance [.martyError] then if !reraise then .suppressed else .propagated
    else if e.isInstance [.connectionError, .timeoutError] then
      e.convert reraise .network ("Network error in " ++ operationName)
    else if e.isInstance [.valueError, .typeError] then
      e.convert reraise .validation ("Validation error in " ++ operationName)
    else if e.isInstance [.fileNotFoundError, .permissionError] then
      e.convert reraise .configuration ("Configuration error in " ++ operationName)
    else e.convert reraise .service ("Unexpected error in " ++ operationName)

/-- Both propagate what the body has raised, both raise an error of one class, or both suppress
it. -/
inductive Agree : Outcome ε α → Outcome ε α → Prop
  | propagated : Agree .propagated .propagated
  | raised (cls : MartyErrorClass) (message message' : String) :
    Agree (.raised cls message) (.raised cls message')
  | suppressed : Agree .suppressed .suppressed

namespace BaseException

variable {e : BaseException ε} {reraise : Bool} {cls : MartyErrorClass} {context context' : String}

theorem isInstance_eq_true {classes : List ExceptionClass} :
    e.isInstance classes = true ↔ ∃ c ∈ classes, c ∈ e.classes := by
  simp [isInstance]

/-- Every class but the outermost one is one of `Exception`. -/
theorem exception_mem {c : ExceptionClass} (h : c ∈ e.classes) (hne : c ≠ .baseException) :
    .exception ∈ e.classes := by
  have hos : .osError ∈ e.classes → .exception ∈ e.classes := fun h => e.base_mem _ h _ rfl
  cases c with
  | baseException => exact absurd rfl hne
  | exception => exact h
  | osError => exact hos h
  | connectionError => exact hos (e.base_mem _ h _ rfl)
  | timeoutError => exact hos (e.base_mem _ h _ rfl)
  | fileNotFoundError => exact hos (e.base_mem _ h _ rfl)
  | permissionError => exact hos (e.base_mem _ h _ rfl)
  | valueError => exact e.base_mem _ h _ rfl
  | typeError => exact e.base_mem _ h _ rfl
  | martyError => exact e.base_mem _ h _ rfl

theorem isInstance_eq_false (h : .exception ∉ e.classes) {classes : List ExceptionClass}
    (hclasses : .baseException ∉ classes) : e.isInstance classes = false := by
  refine Bool.eq_false_iff.mpr fun hinstance => ?_
  obtain ⟨c, hc, hmem⟩ := isInstance_eq_true.mp hinstance
  exact h (exception_mem hmem fun heq => hclasses (heq ▸ hc))

/-- The messages may differ, but `str` must not raise. -/
theorem agree_report_convert :
    Agree (e.report reraise cls context : Outcome ε α) (e.convert reraise cls context') ↔
      ∃ text, e.str = .ok text := by
  unfold report convert
  cases e.str with
  | error x =>
    refine iff_of_false (fun h => ?_) fun ⟨_, h⟩ => nomatch h
    cases h
  | ok text =>
    refine iff_of_true ?_ ⟨text, rfl⟩
    cases reraise with
    | false => exact .suppressed
    | true => exact .raised _ _ _

theorem not_agree_propagated_convert :
    ¬Agree (.propagated : Outcome ε α) (e.convert reraise cls context) := by
  unfold convert
  intro h
  cases reraise with
  | false => cases h
  | true => cases hstr : e.str <;> rw [hstr] at h <;> cases h

end BaseException

open BaseException

section

variable {e : BaseException ε} {reraise : Bool} {name operationName : String}

theorem agree_of_martyError (h : e.isInstance [.martyError] = true) :
    Agree (handleCommonExceptions reraise name (.error e) : Outcome ε α)
      (errorContext reraise operationName (.error e)) := by
  simp only [handleCommonExceptions, errorContext, h, if_true]
  cases reraise with
  | false => exact .suppressed
  | true => exact .propagated

/-- For any other `Exception` the two choose the same class. -/
theorem exists_report_convert (α : Type v) (reraise : Bool) (name operationName : String)
    (hmarty : e.isInstance [.martyError] = false) (h : e.isInstance [.exception] = true) :
    ∃ cls context context',
      handleCommonExceptions reraise name (.error e) =
          (e.report reraise cls context : Outcome ε α) ∧
        errorContext reraise operationName (.error e) =
          (e.convert reraise cls context' : Outcome ε α) := by
  have hconfiguration : e.isInstance [.fileNotFoundError, .permissionError] =
      (e.isInstance [.fileNotFoundError] || e.isInstance [.permissionError]) := by
    simp [isInstance]
  simp only [handleCommonExceptions, errorContext, hmarty, h, hconfiguration]
  cases e.isInstance [.connectionError, .timeoutError] with
  | true => exact ⟨.network, _, _, rfl, rfl⟩
  | false =>
    cases e.isInstance [.valueError, .typeError] with
    | true => exact ⟨.validation, _, _, rfl, rfl⟩
    | false =>
      cases e.isInstance [.fileNotFoundError] with
      | true => exact ⟨.configuration, _, _, rfl, rfl⟩
      | false =>
        cases e.isInstance [.permissionError] with
        | true => exact ⟨.configuration, _, _, rfl, rfl⟩
        | false => exact ⟨.service, _, _, rfl, rfl⟩

/-- The decorator lets pass what is no `Exception`. -/
theorem handleCommonExceptions_propagated (h : .exception ∉ e.classes) :
    handleCommonExceptions reraise name (.error e) = (.propagated : Outcome ε α) := by
  simp (disch := decide) only [handleCommonExceptions, isInstance_eq_false h, Bool.false_eq_true,
    if_false]

/-- The context manager has no clause for what is no `Exception`. -/
theorem errorContext_convert (h : .exception ∉ e.classes) :
    errorContext reraise operationName (.error e) =
      (e.convert reraise .service ("Unexpected error in " ++ operationName) : Outcome ε α) := by
  simp (disch := decide) only [errorContext, isInstance_eq_false h, Bool.false_eq_true, if_false]

end

/-- An interrupt from the keyboard. -/
def keyboardInterrupt : BaseException Empty where
  classes := [.baseException]
  base_mem := by decide
  baseException_mem := by decide
  str := .ok ""

end Marty.Errors.Handlers
