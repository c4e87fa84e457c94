import Mathlib.Order.Nat
import Marty.Lib.Assigning
import Marty.Lib.Base64

/-! `PassportData` and `CMCData`: the order of the two dates of a holder is checked where the expiry
is set, and not where the date of birth is. -/

namespace Marty.Models.HolderDates

open Lib Lib.Base64 Lib.Run Lib.Assigning

/-- A `date`, by its ordinal. -/
abbrev Date := Nat

inductive Gender
  | male | female | unspecified
  deriving DecidableEq

inductive CMCSecurityModel
  | chipLds | vdsNc
  deriving DecidableEq

inductive Image
  | text (s : String)
  | bytes (b : Bytes)
  deriving DecidableEq

/-! Validators, the same in both classes; `upper` is `str.upper`. -/

variable (upper : String → String)

def validateCountryCode (v : String) : Option String :=
  if v.length ≠ 3 then none else some (upper v)

def validateExpiryDate (dateOfBirth v : Date) : Option Date :=
  if v < dateOfBirth then none else some v

def validateImage (v : Option Image) : Option (Option Image) :=
  match v with
  | some (.text s) => (b64decode s).map fun _ => v
  | some (.bytes _) | none => some v

structure PassportData where
  documentNumber : String
  issuingCountry : String
  surname : String
  givenNames : String
  nationality : String
  dateOfBirth : Date
  gender : Gender
  dateOfExpiry : Date
  personalNumber : Option String := none
  photo : Option Image := none
  deriving DecidableEq

namespace PassportData

inductive Assignment
  | documentNumber (v : String)
  | issuingCountry (v : String)
  | surname (v : String)
  | givenNames (v : String)
  | nationality (v : String)
  | dateOfBirth (v : Date)
  | gender (v : Gender)
  | dateOfExpiry (v : Date)
  | personalNumber (v : Option String)
  | photo (v : Option Image)

/-- `PassportData(...)` -/
def new (p : PassportData) : Option PassportData := do
  let issuingCountry ← validateCountryCode upper p.issuingCountry
  let nationality ← validateCountryCode upper p.nationality
  let dateOfExpiry ← validateExpiryDate p.dateOfBirth p.dateOfExpiry
  let photo ← validateImage p.photo
  some { p with
    issuingCountry := issuingCountry
    nationality := nationality
    dateOfExpiry := dateOfExpiry
    photo := photo }

def assign (p : PassportData) : Assignment → Option PassportData
  | .documentNumber v => some { p with documentNumber := v }
  | .issuingCountry v =>
    (validateCountryCode upper v).map fun v => { p with issuingCountry := v }
  | .surname v => some { p with surname := v }
  | .givenNames v => some { p with givenNames := v }
  | .nationality v => (validateCountryCode upper v).map fun v => { p with nationality := v }
  | .dateOfBirth v => some { p with dateOfBirth := v }
  | .gender v => some { p with gender := v }
  | .dateOfExpiry v =>
    (validateExpiryDate p.dateOfBirth v).map fun v => { p with dateOfExpiry := v }
  | .personalNumber v => some { p with personalNumber := v }
  | .photo v => (validateImage v).map fun v => { p with photo := v }

/-- The date of birth that an assignment gives. -/
def birthGiven : Assignment → Option Date
  | .dateOfBirth v => some v
  | _ => none

end PassportData

structure CMCData where
  documentNumber : String
  issuingCountry : String
  surname : String
  givenNames : String
  nationality : String
  dateOfBirth : Date
  gender : Gender
  dateOfExpiry : Date
  employer : Option String := none
  crewId : Option String := none
  securityModel : CMCSecurityModel := .chipLds
  backgroundCheckVerified : Bool := false
  faceImage : Option Image := none
  deriving DecidableEq

namespace CMCData

inductive Assignment
  | documentNumber (v : String)
  | issuingCountry (v : String)
  | surname (v : String)
  | givenNames (v : String)
  | nationality (v : String)
  | dateOfBirth (v : Date)
  | gender (v : Gender)
  | dateOfExpiry (v : Date)
  | employer (v : Option String)
  | crewId (v : Option String)
  | securityModel (v : CMCSecurityModel)
  | backgroundCheckVerified (v : Bool)
  | faceImage (v : Option Image)

/-- `CMCData(...)` -/
def new (p : CMCData) : Option CMCData := do
  let issuingCountry ← validateCountryCode upper p.issuingCountry
  let nationality ← validateCountryCode upper p.nationality
  let dateOfExpiry ← validateExpiryDate p.dateOfBirth p.dateOfExpiry
  let faceImage ← validateImage p.faceImage
  some { p with
    issuingCountry := issuingCountry
    nationality := nationality
    dateOfExpiry := dateOfExpiry
    faceImage := faceImage }

def assign (p : CMCData) : Assignment → Option CMCData
  | .documentNumber v => some { p with documentNumber := v }
  | .issuingCountry v =>
    (validateCountryCode upper v).map fun v => { p with issuingCountry := v }
  | .surname v => some { p with surname := v }
  | .givenNames v => some { p with givenNames := v }
  | .nationality v => (validateCountryCode upper v).map fun v => { p with nationality := v }
  | .dateOfBirth v => some { p with dateOfBirth := v }
  | .gender v => some { p with gender := v }
  | .dateOfExpiry v =>
    (validateExpiryDate p.dateOfBirth v).map fun v => { p with dateOfExpiry := v }
  | .employer v => some { p with employer := v }
  | .crewId v => some { p with crewId := v }
  | .securityModel v => some { p with securityModel := v }
  | .backgroundCheckVerified v => some { p with backgroundCheckVerified := v }
  | .faceImage v => (validateImage v).map fun v => { p with faceImage := v }

/-- The date of birth that an assignment gives. -/
def birthGiven : Assignment → Option Date
  | .dateOfBirth v => some v
  | _ => none

end CMCData

variable {upper}

theorem validateExpiryDate_eq_some {dateOfBirth v v' : Date}
    (h : validateExpiryDate dateOfBirth v = some v') : v' = v ∧ dateOfBirth ≤ v' := by
  rw [validateExpiryDate] at h
  split at h
  case isTrue => cases h
  case isFalse hlt =>
    obtain rfl := Option.some.inj h
    exact ⟨rfl, Nat.le_of_not_lt hlt⟩

namespace PassportData

variable {p p' : PassportData}

theorem ordered_of_new (h : new upper p = some p') : p'.dateOfBirth ≤ p'.dateOfExpiry := by
  simp only [new, Option.bind_eq_bind, Option.bind_eq_some_iff] at h
  obtain ⟨issuingCountry, -, nationality, -, dateOfExpiry, hexpiry, photo, -, h⟩ := h
  obtain rfl := Option.some.inj h
  exact (validateExpiryDate_eq_some hexpiry).2

/-- What an assignment to another field than the date of birth does to the dates. -/
theorem dates_of_assign {a : Assignment} (hbirth : birthGiven a = none)
    (h : assign upper p a = some p') : p'.dateOfBirth = p.dateOfBirth ∧
      (p'.dateOfExpiry = p.dateOfExpiry ∨ p.dateOfBirth ≤ p'.dateOfExpiry) := by
  cases a with
  | dateOfBirth v => cases hbirth
  | dateOfExpiry v =>
    obtain ⟨v', hv', rfl⟩ := Option.map_eq_some_iff.mp h
    exact ⟨rfl, Or.inr (validateExpiryDate_eq_some hv').2⟩
  | issuingCountry v | nationality v | photo v =>
    obtain ⟨v', -, rfl⟩ := Option.map_eq_some_iff.mp h
    exact ⟨rfl, Or.inl rfl⟩
  | _ =>
    obtain rfl := Option.some.inj h
    exact ⟨rfl, Or.inl rfl⟩

theorem assign_birth {a : Assignment} {d : Date} (h : d ∈ birthGiven a) :
    ∃ p', assign upper p a = some p' ∧ p'.dateOfBirth = d ∧ p'.dateOfExpiry = p.dateOfExpiry := by
  cases a <;> cases h
  exact ⟨_, rfl, rfl, rfl⟩

theorem ordered_iff (h : new upper p = some p') (assignments : List Assignment) :
    (∀ n q, run (attempt (assign upper)) p' (assignments.take n) = some q →
      q.dateOfBirth ≤ q.dateOfExpiry) ↔
    Guarded (attempt (assign upper)) (Below dateOfExpiry birthGiven) p' assignments := by
  apply ordered_iff_below
  · exact fun _ _ _ hd => assign_birth hd
  · exact fun _ _ _ hbirth h => dates_of_assign hbirth h
  · exact ordered_of_new h

end PassportData

namespace CMCData

variable {p p' : CMCData}

theorem ordered_of_new (h : new upper p = some p') : p'.dateOfBirth ≤ p'.dateOfExpiry := by
  simp only [new, Option.bind_eq_bind, Option.bind_eq_some_iff] at h
  obtain ⟨issuingCountry, -, nationality, -, dateOfExpiry, hexpiry, faceImage, -, h⟩ := h
  obtain rfl := Option.some.inj h
  exact (validateExpiryDate_eq_some hexpiry).2

theorem dates_of_assign {a : Assignment} (hbirth : birthGiven a = none)
    (h : assign upper p a = some p') : p'.dateOfBirth = p.dateOfBirth ∧
      (p'.dateOfExpiry = p.dateOfExpiry ∨ p.dateOfBirth ≤ p'.dateOfExpiry) := by
  cases a with
  | dateOfBirth v => cases hbirth
  | dateOfExpiry v =>
    obtain ⟨v', hv', rfl⟩ := Option.map_eq_some_iff.mp h
    exact ⟨rfl, Or.inr (validateExpiryDate_eq_some hv').2⟩
  | issuingCountry v | nationality v | faceImage v =>
    obtain ⟨v', -, rfl⟩ := Option.map_eq_some_iff.mp h
    exact ⟨rfl, Or.inl rfl⟩
  | _ =>
    obtain rfl := Option.some.inj h
    exact ⟨rfl, Or.inl rfl⟩

theorem assign_birth {a : Assignment} {d : Date} (h : d ∈ birthGiven a) :
    ∃ p', assign upper p a = some p' ∧ p'.dateOfBirth = d ∧ p'.dateOfExpiry = p.dateOfExpiry := by
  cases a <;> cases h
  exact ⟨_, rfl, rfl, rfl⟩

theorem ordered_iff (h : new upper p = some p') (assignments : List Assignment) :
    (∀ n q, run (attempt (assign upper)) p' (assignments.take n) = some q →
      q.dateOfBirth ≤ q.dateOfExpiry) ↔
    Guarded (attempt (assign upper)) (Below dateOfExpiry birthGiven) p' assignments := by
  apply ordered_iff_below
  · exact fun _ _ _ hd => assign_birth hd
  · exact fun _ _ _ hbirth h => dates_of_assign hbirth h
  · exact ordered_of_new h

end CMCData

/-- The dates of a holder are in order in every state that is reached from one that is accepted
exactly when no date of birth is assigned that is later than the expiry at that time. -/
theorem holderDates_iff (upper : String → String) :
    (∀ p assignments p₀, PassportData.new upper p = some p₀ →
      ((∀ n q, run (attempt (PassportData.assign upper)) p₀ (assignments.take n) = some q →
          q.dateOfBirth ≤ q.dateOfExpiry) ↔
        Guarded (attempt (PassportData.assign upper))
          (Below PassportData.dateOfExpiry PassportData.birthGiven) p₀ assignments)) ∧
    ∀ p assignments p₀, CMCData.new upper p = some p₀ →
      ((∀ n q, run (attempt (CMCData.assign upper)) p₀ (assignments.take n) = some q →
          q.dateOfBirth ≤ q.dateOfExpiry) ↔
        Guarded (attempt (CMCData.assign upper))
          (Below CMCData.dateOfExpiry CMCData.birthGiven) p₀ assignments) :=
  ⟨fun _ assignments _ h => PassportData.ordered_iff h assignments,
    fun _ assignments _ h => CMCData.ordered_iff h assignments⟩

def passport : PassportData where
  documentNumber := "P1234567"
  issuingCountry := "UTO"
  surname := "ERIKSSON"
  givenNames := "ANNA MARIA"
  nationality := "UTO"
  dateOfBirth := 720000
  gender := .female
  dateOfExpiry := 740000

def certificate : CMCData where
  documentNumber := "C1234567"
  issuingCountry := "UTO"
  surname := "ERIKSSON"
  givenNames := "ANNA MARIA"
  nationality := "UTO"
  dateOfBirth := 720000
  gender := .female
  dateOfExpiry := 740000

theorem earlier_birth_kept : ∀ n q,
    run (attempt (PassportData.assign id)) passport
      ([PassportData.Assignment.dateOfBirth 730000].take n) = some q →
    q.dateOfBirth ≤ q.dateOfExpiry :=
  ((holderDates_iff id).1 passport [.dateOfBirth 730000] passport (by decide +kernel)).mpr
    ⟨by simp [Below, PassportData.birthGiven, passport], trivial⟩

/-- A date of birth after the expiry is accepted. -/
theorem late_birth_accepted :
    PassportData.new id passport = some passport ∧
    run (attempt (PassportData.assign id)) passport [.dateOfBirth 750000] =
      some { passport with dateOfBirth := 750000 } ∧
    CMCData.new id certificate = some certificate ∧
    run (attempt (CMCData.assign id)) certificate [.dateOfBirth 750000] =
      some { certificate with dateOfBirth := 750000 } ∧
    ¬ (750000 ≤ passport.dateOfExpiry) := by
  refine ⟨by decide +kernel, rfl, by decide +kernel, rfl, by decide⟩

end Marty.Models.HolderDates
