import Marty.Lib.Regex
import Marty.Lib.Strip

/-! `Email`: an address is kept in lower case and without spaces around it; a string that it is
compared with is not stripped. -/

namespace Marty.Models

open Lib Lib.Regex

def Email.isLocal (c : Char) : Bool := c.isAlphanum || c ∈ ['.', '_', '%', '+', '-']

def Email.isDomain (c : Char) : Bool := c.isAlphanum || c ∈ ['.', '-']

/-- `^[a-zA-Z0-9._%+-]+@[a-zA-Z0-9.-]+\.[a-zA-Z]{2,}$` -/
def Email.emailPattern : Re := .cat [.many1 isLocal, .lit "@", .many1 isDomain, .lit ".",
  .cls Char.isAlpha, .many1 Char.isAlpha, .eos]

/-- `value.lower().strip()` -/
def Email.normalize (value : String) : String := Text.strip (Text.lower value)

structure Email where
  value : String
  valid : Email.emailPattern.test value = true
  lowered : Text.lower value = value
  stripped : Text.strip value = value
  deriving DecidableEq

theorem Email.lower_normalize (value : String) :
    Text.lower (normalize value) = normalize value := by
  apply Text.lower_eq
  exact fun c hc => Text.mem_of_mem_strip hc

namespace Email

/-- `Email(value)` -/
def new (value : String) : Option Email :=
  if value = "" then none
  else if valid : emailPattern.test (normalize value) = true then
    some ⟨normalize value, valid, lower_normalize value, Text.strip_strip _⟩
  else none

def eqEmail (e other : Email) : Bool := e.value = other.value

/-- `e == other` for a string. -/
def eqStr (e : Email) (other : String) : Bool := e.value = Text.lower other

/-- `hash` is that of strings. -/
def hash (hash : String → Int) (e : Email) : Int := hash e.value

/-- Equality with a string agrees with the hashes, and with the addresses that strings are. -/
def Lawful (hashStr : String → Int) (e : Email) (s : String) : Prop :=
  (e.eqStr s = true → e.hash hashStr = hashStr s) ∧
    (e.eqStr s = true ↔ ∃ e', new s = some e' ∧ e'.eqEmail e = true)

variable {e : Email} {s : String} {hashStr : String → Int}

theorem normalize_value (e : Email) : normalize e.value = e.value := by
  rw [normalize, e.lowered, e.stripped]

/-- The strings that are the address are those that are normalized to it. -/
theorem new_iff : (∃ e', new s = some e' ∧ e'.eqEmail e = true) ↔ normalize s = e.value := by
  constructor
  · rintro ⟨e', hnew, heq⟩
    rw [new] at hnew
    split at hnew
    · cases hnew
    · split at hnew
      · obtain rfl := Option.some.inj hnew
        exact of_decide_eq_true heq
      · cases hnew
  · intro h
    have hempty : s ≠ "" := by
      rintro rfl
      have hvalid := e.valid
      rw [← h] at hvalid
      revert hvalid
      decide
    have hvalid : emailPattern.test (normalize s) = true := by
      rw [h]
      exact e.valid
    rw [new, if_neg hempty, dif_pos hvalid]
    exact ⟨_, rfl, decide_eq_true h⟩

theorem normalize_of_eqStr (h : e.eqStr s = true) : normalize s = e.value := by
  rw [normalize, ← of_decide_eq_true h, e.stripped]

/-- Equality is lawful at a string exactly when the string is the address as it is kept, or is not
normalized to it. -/
theorem lawful_iff (hashStr : String → Int) (e : Email) (s : String)
    (hcollision : hashStr e.value = hashStr s → e.value = s) :
    e.Lawful hashStr s ↔ s = e.value ∨ normalize s ≠ e.value := by
  rw [Lawful, new_iff]
  constructor
  · rintro ⟨hhash, heq⟩
    by_cases hnormal : normalize s = e.value
    · exact Or.inl (hcollision (hhash (heq.mpr hnormal))).symm
    · exact Or.inr hnormal
  · rintro (rfl | hnormal)
    · exact ⟨fun _ => rfl, iff_of_true (decide_eq_true e.lowered.symm) e.normalize_value⟩
    · have hne : ¬ e.eqStr s = true := fun h => hnormal (normalize_of_eqStr h)
      exact ⟨fun h => absurd h hne, iff_of_false hne hnormal⟩

def address : Email where
  value := "a@b.co"
  valid := by decide +kernel
  lowered := by decide +kernel
  stripped := by decide +kernel

/-- Hashes of strings, as one process has them. -/
def hashes (s : String) : Int :=
  if s = "a@b.co" then 4870301741629955977
  else if s = "A@B.CO" then -3001597934019091358
  else 3617949314999847464

theorem address_lawful : address.Lawful hashes "c@d.org" :=
  (lawful_iff hashes address "c@d.org" (by decide)).mpr (Or.inr (by decide +kernel))

/-- An equal string with another hash, and a string that is the address without being equal. -/
theorem address_unlawful :
    address.eqStr "A@B.CO" = true ∧ address.hash hashes ≠ hashes "A@B.CO" ∧
    new " a@b.co" = some address ∧ address.eqStr " a@b.co" = false ∧
    ¬ address.Lawful hashes "A@B.CO" ∧ ¬ address.Lawful hashes " a@b.co" := by
  have hequal : address.eqStr "A@B.CO" = true := by decide +kernel
  have hhash : address.hash hashes ≠ hashes "A@B.CO" := by decide
  have hnew : new " a@b.co" = some address := by decide +kernel
  have hdiffers : address.eqStr " a@b.co" = false := by decide +kernel
  refine ⟨hequal, hhash, hnew, hdiffers, fun h => hhash (h.1 hequal), fun h => ?_⟩
  have hstr := h.2.mpr ⟨address, hnew, decide_eq_true rfl⟩
  rw [hdiffers] at hstr
  cases hstr

end Email

end Marty.Models
