import Marty.Lib.Assigning
import Marty.Lib.Isoformat

/-! `ICaoPassport`: the error for an expiry that is not after the issue is a `ValueError`, and is
caught where the dates are compared. -/

namespace Marty.Models

open Lib Lib.Run Lib.Assigning
open Lib.Isoformat (Datetime fromisoformat)

structure ICaoPassport where
  passportNumber : String
  issueDate : String
  expiryDate : String
  dataGroups : List (String × String)
  sod : String := ""
  deriving DecidableEq

namespace ICaoPassport

inductive Exception
  | valueError | typeError
  deriving DecidableEq

/-- `datetime.fromisoformat(v.replace("Z", "+00:00"))` -/
def parseDate (v : String) : Except Exception Datetime :=
  let text := v.toList.flatMap fun c => if c = 'Z' then "+00:00".toList else [c]
  match fromisoformat (String.ofList text) with
  | none => .error .valueError
  | some date => .ok date

def validateDateFormat (v : String) : Except Exception String :=
  match parseDate v with
  | .ok _ => .ok v
  | .error e => .error e

/-- The body of the `try` statement: dates of which only one is aware are not compared. -/
def checkOrder (issueDate v : String) : Except Exception Unit := do
  let issue ← parseDate issueDate
  let expiry ← parseDate v
  match issue.lt? expiry with
  | none => .error .typeError
  | some false => .error .valueError
  | some true => .ok ()

def validateExpiryDate (issueDate v : String) : Except Exception String :=
  if issueDate ≠ "" then
    match checkOrder issueDate v with
    | .ok () | .error .valueError => .ok v
    | .error .typeError => .error .typeError
  else .ok v

/-- The validators of `expiry_date`, with the issue date that has been validated before. -/
def checkExpiry (issueDate v : String) : Except Exception String := do
  let v ← validateDateFormat v
  validateExpiryDate issueDate v

/-- An assignment to a field. -/
inductive Assignment
  | passportNumber (v : String)
  | issueDate (v : String)
  | expiryDate (v : String)
  | dataGroups (v : List (String × String))
  | sod (v : String)

/-- `ICaoPassport(...)` -/
def new (p : ICaoPassport) : Option ICaoPassport :=
  match validateDateFormat p.issueDate with
  | .error _ => none
  | .ok issueDate =>
    match checkExpiry issueDate p.expiryDate with
    | .error _ => none
    | .ok expiryDate => some { p with issueDate := issueDate, expiryDate := expiryDate }

def assign (p : ICaoPassport) : Assignment → Option ICaoPassport
  | .passportNumber v => some { p with passportNumber := v }
  | .issueDate v =>
    match validateDateFormat v with
    | .error _ => none
    | .ok v => some { p with issueDate := v }
  | .expiryDate v =>
    match checkExpiry p.issueDate v with
    | .error _ => none
    | .ok v => some { p with expiryDate := v }
  | .dataGroups v => some { p with dataGroups := v }
  | .sod v => some { p with sod := v }

/-- Whether the first date is before the second, where both are ISO dates that can be compared. -/
def before? (issueDate expiryDate : String) : Option Bool :=
  match parseDate issueDate, parseDate expiryDate with
  | .ok issue, .ok expiry => issue.lt? expiry
  | _, _ => none

def InOrder (issueDate expiryDate : String) : Prop := before? issueDate expiryDate ≠ some false

instance (issueDate expiryDate : String) : Decidable (InOrder issueDate expiryDate) :=
  inferInstanceAs (Decidable (_ ≠ _))

def Ordered (p : ICaoPassport) : Prop := InOrder p.issueDate p.expiryDate

/-- A date that is assigned is in order with the other one. -/
def Keeps (p : ICaoPassport) : Assignment → Prop
  | .issueDate v => InOrder v p.expiryDate
  | .expiryDate v => InOrder p.issueDate v
  | .passportNumber _ | .dataGroups _ | .sod _ => True

variable {p p' : ICaoPassport} {issueDate v v' : String} {e : Exception}

theorem validateDateFormat_ok (h : validateDateFormat v = .ok v') : v' = v := by
  rw [validateDateFormat] at h
  split at h
  · exact (Except.ok.inj h).symm
  · cases h

theorem parseDate_of_error (h : validateDateFormat v = .error e) : parseDate v = .error e := by
  rw [validateDateFormat] at h
  split at h
  case h_1 => cases h
  case h_2 e' hparse =>
    obtain rfl : e' = e := Except.error.inj h
    exact hparse

theorem validateExpiryDate_ok (h : validateExpiryDate issueDate v = .ok v') : v' = v := by
  rw [validateExpiryDate] at h
  split at h
  · split at h
    · exact (Except.ok.inj h).symm
    · exact (Except.ok.inj h).symm
    · cases h
  · exact (Except.ok.inj h).symm

/-- Only dates that are not compared are rejected. -/
theorem inOrder_of_validateExpiryDate (h : validateExpiryDate issueDate v = .error e) :
    InOrder issueDate v := by
  rw [validateExpiryDate] at h
  split at h
  · split at h
    · cases h
    · cases h
    · rename_i hcheck
      intro hbefore
      rw [before?] at hbefore
      split at hbefore
      case h_1 issue expiry hissue hexpiry =>
        simp [checkOrder, hissue, hexpiry, hbefore, bind, Except.bind] at hcheck
      case h_2 => cases hbefore
  · cases h

theorem checkExpiry_ok (h : checkExpiry issueDate v = .ok v') : v' = v := by
  rw [checkExpiry] at h
  cases hformat : validateDateFormat v with
  | error e =>
    rw [hformat] at h
    cases h
  | ok w =>
    rw [hformat] at h
    exact (validateExpiryDate_ok h).trans (validateDateFormat_ok hformat)

theorem inOrder_of_checkExpiry (h : checkExpiry issueDate v = .error e) : InOrder issueDate v := by
  rw [checkExpiry] at h
  cases hformat : validateDateFormat v with
  | error e' =>
    rw [InOrder, before?, parseDate_of_error hformat]
    simp
  | ok w =>
    rw [hformat] at h
    obtain rfl := validateDateFormat_ok hformat
    exact inOrder_of_validateExpiryDate h

/-- No validator changes a date. -/
theorem eq_of_new (h : new p = some p') : p' = p := by
  rw [new] at h
  split at h
  · cases h
  · rename_i hissue
    split at h
    · cases h
    · rename_i hexpiry
      obtain rfl := Option.some.inj h
      rw [validateDateFormat_ok hissue, checkExpiry_ok hexpiry]

theorem keeps_iff_ordered (hp : Ordered p) {a : Assignment} (h : assign p a = some p') :
    Keeps p a ↔ Ordered p' := by
  cases a with
  | issueDate v =>
    rw [assign] at h
    split at h
    · cases h
    · rename_i hformat
      obtain rfl := Option.some.inj h
      rw [validateDateFormat_ok hformat]
      exact Iff.rfl
  | expiryDate v =>
    rw [assign] at h
    split at h
    · cases h
    · rename_i hexpiry
      obtain rfl := Option.some.inj h
      rw [checkExpiry_ok hexpiry]
      exact Iff.rfl
  | passportNumber v | dataGroups v | sod v =>
    obtain rfl := Option.some.inj h
    exact iff_of_true trivial hp

theorem keeps_of_rejected {a : Assignment} (h : assign p a = none) : Keeps p a := by
  cases a with
  | issueDate v =>
    rw [assign] at h
    split at h
    · rename_i hformat
      rw [Keeps, InOrder, before?, parseDate_of_error hformat]
      simp
    · cases h
  | expiryDate v =>
    rw [assign] at h
    split at h
    · rename_i hexpiry
      exact inOrder_of_checkExpiry hexpiry
    · cases h
  | passportNumber v | dataGroups v | sod v => trivial

/-- The dates of a passport are in order in every state that is reached exactly when those that it
is made with and those that are assigned to it are given in order. -/
theorem dates_ordered_iff (p : ICaoPassport) (assignments : List Assignment) :
    (∀ p₀, new p = some p₀ → ∀ n p',
      run (attempt assign) p₀ (assignments.take n) = some p' → Ordered p') ↔
    ∀ p₀, new p = some p₀ →
      InOrder p.issueDate p.expiryDate ∧ Guarded (attempt assign) Keeps p₀ assignments := by
  refine forall_congr' fun p₀ => forall_congr' fun hnew => ?_
  obtain rfl := eq_of_new hnew
  exact good_iff (fun p a p' hp h => keeps_iff_ordered hp h) (fun p a _ h => keeps_of_rejected h)
    p₀ assignments

/-- A passport that has expired before it was issued. -/
def reversed : ICaoPassport where
  passportNumber := "P1234567"
  issueDate := "2024-01-01"
  expiryDate := "2014-01-01"
  dataGroups := []

theorem reversed_accepted : new reversed = some reversed ∧ ¬ Ordered reversed := by
  refine ⟨by decide +kernel, ?_⟩
  rw [Ordered]
  decide +kernel

end ICaoPassport

end Marty.Models
