import Marty.Lib.JsonLexeme
import Marty.Lib.Strip

/-! `str` of an integer and `int` of a text, with the interpreter's limit on the number of
digits. -/

namespace Lib.Integer

open JsonLexeme (intText)

/-- `unicodedata.decimal`, which has the value of the digits of all scripts. -/
structure Decimals where
  value : Char → Option Nat
  ascii : ∀ n < 10, value (Nat.digitChar n) = some n

/-- The digits of ASCII have their values. -/
theorem value_digitChar : ∀ n < 10, (if (Nat.digitChar n).isDigit then
    some ((Nat.digitChar n).toNat - '0'.toNat) else none) = some n := by
  decide

def maxStrDigits : Nat := 4300

def Short (n : Int) : Prop := (Nat.toDigits 10 n.natAbs).length ≤ maxStrDigits

instance (n : Int) : Decidable (Short n) := inferInstanceAs (Decidable (_ ≤ _))

/-- `str(n)` -/
def str (n : Int) : Option String := if Short n then some (String.ofList (intText n)) else none

variable (decimals : Decimals)

/-- The digits after the first, with single underscores between them. -/
def readDigits : Nat → List Char → Option Nat
  | n, [] => some n
  | _, ['_'] => none
  | n, '_' :: c :: text => (decimals.value c).bind fun digit => readDigits (10 * n + digit) text
  | n, c :: text => (decimals.value c).bind fun digit => readDigits (10 * n + digit) text

def readNat (text : List Char) : Option Nat :=
  if (text.filter (· ≠ '_')).length ≤ maxStrDigits then
    match text with
    | [] => none
    | c :: text => (decimals.value c).bind fun digit => readDigits decimals digit text
  else none

/-- `int(s)` -/
def int (s : String) : Option Int :=
  match (Text.strip s).toList with
  | '-' :: text => (readNat decimals text).map fun n => -(n : Int)
  | '+' :: text => (readNat decimals text).map fun n => (n : Int)
  | text => (readNat decimals text).map fun n => (n : Int)

variable {decimals}

theorem toNat_of_isDigit {c : Char} (h : c.isDigit = true) : 48 ≤ c.toNat ∧ c.toNat ≤ 57 := by
  simpa [Char.isDigit, Char.le_def, UInt32.le_iff_toNat_le] using h

theorem isSpace_of_isDigit {c : Char} (h : c.isDigit = true) : Text.isSpace c = false := by
  have hc := toNat_of_isDigit h
  simp only [Text.isSpace, Bool.or_eq_false_iff, Bool.and_eq_false_iff, decide_eq_false_iff_not,
    beq_eq_false_iff_ne]
  omega

theorem value_of_isDigit {c : Char} (h : c.isDigit = true) :
    decimals.value c = some (c.toNat - '0'.toNat) := by
  have hc := toNat_of_isDigit h
  have hlt : c.toNat - 48 < 10 := by omega
  have hdigit : Nat.digitChar (c.toNat - 48) = c := by
    apply Char.toNat_inj.mp
    rw [Nat.toNat_digitChar_of_lt_ten hlt]
    omega
  have hvalue := decimals.ascii _ hlt
  rwa [hdigit] at hvalue

theorem readDigits_eq {text : List Char} (h : ∀ c ∈ text, c.isDigit = true) (n : Nat) :
    readDigits decimals n text = some (Nat.ofDigitChars 10 text n) := by
  induction text generalizing n with
  | nil => rfl
  | cons c text ih =>
    obtain ⟨hc, htext⟩ := List.forall_mem_cons.mp h
    have hread : readDigits decimals n (c :: text) =
        (decimals.value c).bind fun digit => readDigits decimals (10 * n + digit) text := by
      rw [readDigits.eq_def]
      split <;> simp_all
    rw [hread, value_of_isDigit hc, Option.bind_some, ih htext, Nat.ofDigitChars_cons]

theorem isDigit_of_mem_toDigits {n : Nat} {c : Char} (h : c ∈ Nat.toDigits 10 n) :
    c.isDigit = true := Nat.isDigit_of_mem_toDigits (by decide) (by decide) h

theorem readNat_toDigits {n : Nat} (h : (Nat.toDigits 10 n).length ≤ maxStrDigits) :
    readNat decimals (Nat.toDigits 10 n) = some n := by
  have hlength := (List.length_filter_le (· ≠ '_') (Nat.toDigits 10 n)).trans h
  unfold readNat
  rw [if_pos hlength]
  cases hdigits : Nat.toDigits 10 n with
  | nil => exact absurd hdigits Nat.toDigits_ne_nil
  | cons c text =>
    have hall : ∀ c' ∈ c :: text, c'.isDigit = true := fun c' hc' =>
      isDigit_of_mem_toDigits (hdigits ▸ hc')
    obtain ⟨hc, htext⟩ := List.forall_mem_cons.mp hall
    have hvalue : Nat.ofDigitChars 10 (c :: text) 0 = n := by
      rw [← hdigits, Nat.ofDigitChars_ten_toDigits]
    rw [Nat.ofDigitChars_cons, Nat.mul_zero, Nat.zero_add] at hvalue
    simp only [value_of_isDigit hc, Option.bind_some, readDigits_eq htext, hvalue]

theorem notMem_intText {c : Char} (hminus : c ≠ '-') (hc : c.isDigit = false) (n : Int) :
    c ∉ intText n := by
  have hdigits : c ∉ Nat.toDigits 10 n.natAbs := by
    intro hmem
    rw [isDigit_of_mem_toDigits hmem] at hc
    cases hc
  rw [intText]
  split
  · simp [hminus, hdigits]
  · exact hdigits

theorem strip_intText (n : Int) :
    Text.strip (String.ofList (intText n)) = String.ofList (intText n) := by
  apply Text.strip_of_forall
  intro c hc
  rw [String.toList_ofList] at hc
  by_contra hspace
  rw [Bool.not_eq_false] at hspace
  refine notMem_intText ?_ ?_ n hc
  · rintro rfl
    cases hspace
  · by_contra hdigit
    rw [isSpace_of_isDigit (Bool.not_eq_false _ ▸ hdigit)] at hspace
    cases hspace

/-- What `str` writes is read back. -/
theorem int_str {n : Int} {s : String} (h : str n = some s) : int decimals s = some n := by
  rw [str] at h
  split at h
  case isTrue hshort =>
    obtain rfl := Option.some.inj h
    have hread : readNat decimals (Nat.toDigits 10 n.natAbs) = some n.natAbs :=
      readNat_toDigits hshort
    rw [int, strip_intText, String.toList_ofList, intText]
    by_cases hneg : n < 0
    · have habs : -(n.natAbs : Int) = n := by omega
      rw [if_pos hneg]
      simp only [hread]
      exact congrArg some habs
    · have habs : (n.natAbs : Int) = n := by omega
      have hnat : (readNat decimals (Nat.toDigits 10 n.natAbs)).map (fun n => (n : Int)) =
          some n := by
        rw [hread]
        exact congrArg some habs
      rw [if_neg hneg]
      split
      · rename_i hdigits
        cases isDigit_of_mem_toDigits (hdigits ▸ List.mem_cons_self)
      · rename_i hdigits
        cases isDigit_of_mem_toDigits (hdigits ▸ List.mem_cons_self)
      · exact hnat
  case isFalse => cases h

end Lib.Integer
