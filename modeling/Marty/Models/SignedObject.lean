import Marty.Lib.Base64
import Marty.Lib.Integer

/-! `SignedObject`: the string form has the signature and the timestamp with a period between
them. -/

namespace Marty.Models

open Lib Lib.Base64 Lib.Integer

/-- A signature that is accepted is one that `b64decode` takes, with characters outside the alphabet
or without. -/
structure SignedObject where
  signature : String
  timestamp : Int
  algorithm : String := "SHA256withRSA"
  valid : (b64decode signature).isSome = true
  deriving DecidableEq

namespace SignedObject

variable (decimals : Decimals)

def new (signature : String) (timestamp : Int) (algorithm : String := "SHA256withRSA") :
    Option SignedObject :=
  if valid : (b64decode signature).isSome = true then some ⟨signature, timestamp, algorithm, valid⟩
  else none

/-- It raises for a timestamp with too many digits. -/
def toString (s : SignedObject) : Option String :=
  (str s.timestamp).map fun timestamp => s.signature ++ "." ++ timestamp

def fromString (sodString : String) : Option SignedObject :=
  match (sodString.toList.splitOn '.').map String.ofList with
  | [signature, timestamp] => (int decimals timestamp).bind fun timestamp => new signature timestamp
  | _ => none

/-- The signature has no period, the algorithm is the default, and the timestamp has no more digits
than the interpreter converts. -/
structure Carried (s : SignedObject) : Prop where
  signature : '.' ∉ s.signature.toList
  algorithm : s.algorithm = "SHA256withRSA"
  timestamp : Short s.timestamp

variable {decimals} {s : SignedObject}

theorem notMem_timestamp {timestamp : String} (h : str s.timestamp = some timestamp) :
    '.' ∉ timestamp.toList := by
  rw [str] at h
  split at h
  case isTrue =>
    obtain rfl := Option.some.inj h
    rw [String.toList_ofList]
    exact notMem_intText (by decide) rfl _
  case isFalse => cases h

theorem new_eq_iff : new s.signature s.timestamp = some s ↔ s.algorithm = "SHA256withRSA" := by
  rw [new, dif_pos s.valid, Option.some.injEq]
  constructor
  · intro h
    rw [← h]
  · intro h
    obtain ⟨signature, timestamp, algorithm, valid⟩ := s
    subst h
    rfl

/-- The string form is split at the periods of the signature and at the one that is put in. -/
theorem splitOn_form {timestamp : String} (h : str s.timestamp = some timestamp) :
    (s.signature ++ "." ++ timestamp).toList.splitOn '.' =
      s.signature.toList.splitOn '.' ++ [timestamp.toList] := by
  calc
    (s.signature ++ "." ++ timestamp).toList.splitOn '.' =
        (s.signature.toList ++ '.' :: timestamp.toList).splitOn '.' := by simp
    _ = s.signature.toList.splitOn '.' ++ timestamp.toList.splitOn '.' :=
      List.splitOn_append_cons_self _ _
    _ = s.signature.toList.splitOn '.' ++ [timestamp.toList] := by
      rw [List.splitOn_eq_singleton (notMem_timestamp h)]

theorem fromString_of_notMem {timestamp : String} (h : str s.timestamp = some timestamp)
    (hsignature : '.' ∉ s.signature.toList) :
    fromString decimals (s.signature ++ "." ++ timestamp) = new s.signature s.timestamp := by
  simp only [fromString, splitOn_form h, List.splitOn_eq_singleton hsignature]
  simp [int_str h]

/-- A period in the signature makes one part too many. -/
theorem fromString_of_mem {timestamp : String} (h : str s.timestamp = some timestamp)
    (hsignature : '.' ∈ s.signature.toList) :
    fromString decimals (s.signature ++ "." ++ timestamp) = none := by
  simp only [fromString, splitOn_form h]
  cases hsplit : s.signature.toList.splitOn '.' with
  | nil => exact absurd hsplit (List.splitOn_ne_nil _ _)
  | cons first rest =>
    cases rest with
    | nil =>
      have hjoin : ['.'].intercalate (s.signature.toList.splitOn '.') = s.signature.toList :=
        List.intercalate_splitOn '.'
      rw [hsplit, List.intercalate_singleton] at hjoin
      have hnot : '.' ∉ first := Text.notMem_of_mem_splitOn (hsplit ▸ List.mem_cons_self)
      exact absurd (hjoin ▸ hsignature) hnot
    | cons second rest =>
      cases rest <;> rfl

/-- A signed object is read back from its string form exactly when the form carries it. -/
theorem sod_read_back_iff (decimals : Decimals) (s : SignedObject) :
    s.toString.bind (fromString decimals) = some s ↔ s.Carried := by
  cases htimestamp : str s.timestamp with
  | none =>
    have hlong : ¬ Short s.timestamp := by
      intro hshort
      rw [str, if_pos hshort] at htimestamp
      cases htimestamp
    rw [toString, htimestamp]
    constructor
    · intro h
      cases h
    · exact fun h => absurd h.timestamp hlong
  | some timestamp =>
    have hshort : Short s.timestamp := by
      by_contra hlong
      rw [str, if_neg hlong] at htimestamp
      cases htimestamp
    rw [toString, htimestamp, Option.map_some, Option.bind_some]
    by_cases hsignature : '.' ∈ s.signature.toList
    · rw [fromString_of_mem htimestamp hsignature]
      constructor
      · intro h
        cases h
      · exact fun h => absurd hsignature h.signature
    · rw [fromString_of_notMem htimestamp hsignature, new_eq_iff]
      exact ⟨fun h => ⟨hsignature, h, hshort⟩, fun h => h.algorithm⟩

/-- The decimal digits of ASCII. -/
def asciiDecimals : Decimals where
  value := fun c => if c.isDigit then some (c.toNat - '0'.toNat) else none
  ascii := value_digitChar

def signed (signature : String) (h : (b64decode signature).isSome = true) : SignedObject where
  signature := signature
  timestamp := 1700000000
  valid := h

/-- A period is skipped when the signature is checked, and splits the string form. -/
theorem period_rejected :
    (signed "c2ln.bmVk" rfl).toString = some "c2ln.bmVk.1700000000" ∧
      fromString asciiDecimals "c2ln.bmVk.1700000000" = none ∧
      (signed "c2ln.bmVk" rfl).toString.bind (fromString asciiDecimals) ≠
        some (signed "c2ln.bmVk" rfl) := by
  have hform : (signed "c2ln.bmVk" rfl).toString = some "c2ln.bmVk.1700000000" := by
    decide +kernel
  have hread : fromString asciiDecimals "c2ln.bmVk.1700000000" = none := by
    decide +kernel
  refine ⟨hform, hread, ?_⟩
  rw [hform, Option.bind_some, hread]
  exact fun h => nomatch h

end SignedObject

end Marty.Models
