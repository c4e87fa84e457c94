import Marty.Lib.Dict
import Marty.Lib.Repr
import Mathlib.Data.List.TakeWhile
import Mathlib.Tactic.IntervalCases

/-! The strings and numbers of JSON texts, as `json.dumps` writes and `json.loads` reads them.
Strings are sequences of Unicode scalar values: an escape for half of a surrogate pair reads as the
replacement character. -/

namespace Lib.JsonLexeme

open Lib.Repr (hex quotationMark backslash)

/-! Strings. -/

def unicodeEscape (unit : Nat) : List Char := backslash :: 'u' :: hex 4 unit

/-- The UTF-16 code units of a character. -/
def codeUnits (c : Char) : List Nat :=
  if c.toNat < 0x10000 then [c.toNat]
  else [0xd800 + (c.toNat - 0x10000) / 0x400, 0xdc00 + (c.toNat - 0x10000) % 0x400]

/-- The letters that stand for one character after a backslash. -/
def shortEscapes : List (Char × Char) := [
  (quotationMark, quotationMark), (backslash, backslash), ('n', '\n'), ('r', '\r'), ('t', '\t'),
  ('f', Char.ofNat 0x0c), ('b', Char.ofNat 0x08)]

def escapeChar (c : Char) : List Char :=
  match shortEscapes.find? (·.2 = c) with
  | some entry => [backslash, entry.1]
  | none =>
    if 0x20 ≤ c.toNat ∧ c.toNat < 0x7f then [c] else (codeUnits c).flatMap unicodeEscape

def quote (s : String) : List Char :=
  quotationMark :: (s.toList.flatMap escapeChar ++ [quotationMark])

def hexValue (c : Char) : Option Nat :=
  if c.isDigit then some (c.toNat - 0x30)
  else if 0x61 ≤ c.toNat ∧ c.toNat ≤ 0x66 then some (c.toNat - 0x57)
  else if 0x41 ≤ c.toNat ∧ c.toNat ≤ 0x46 then some (c.toNat - 0x37)
  else none

def readHex (digits : List Char) : Option Nat :=
  digits.foldlM (fun n c => (hexValue c).map (16 * n + ·)) 0

def unescape (c : Char) : Option Nat :=
  if c = '/' then some c.toNat else (shortEscapes.lookup c).map Char.toNat

/-- The code units up to the closing quotation mark. -/
def scanUnits : List Char → Option (List Nat × List Char)
  | [] => none
  | c :: text =>
    if c = quotationMark then some ([], text)
    else if c = backslash then
      match text with
      | [] => none
      | 'u' :: a :: b :: c :: d :: text => do
        let unit ← readHex [a, b, c, d]
        let (units, rest) ← scanUnits text
        some (unit :: units, rest)
      | c :: text => do
        let unit ← unescape c
        let (units, rest) ← scanUnits text
        some (unit :: units, rest)
    else if c.toNat < 0x20 then none
    else do
      let (units, rest) ← scanUnits text
      some (c.toNat :: units, rest)

def isHigh (unit : Nat) : Bool := decide (0xd800 ≤ unit ∧ unit < 0xdc00)

def isLow (unit : Nat) : Bool := decide (0xdc00 ≤ unit ∧ unit < 0xe000)

def charOf (unit : Nat) : Char :=
  if isHigh unit || isLow unit then Char.ofNat 0xfffd else Char.ofNat unit

def joinSurrogates : List Nat → List Char
  | [] => []
  | [unit] => [charOf unit]
  | high :: low :: units =>
    if isHigh high && isLow low then
      Char.ofNat (0x10000 + (high - 0xd800) * 0x400 + (low - 0xdc00)) :: joinSurrogates units
    else charOf high :: joinSurrogates (low :: units)

def scanString (text : List Char) : Option (String × List Char) :=
  (scanUnits text).map fun (units, rest) => (String.ofList (joinSurrogates units), rest)

theorem hexValue_digitChar : ∀ n < 16, hexValue (Nat.digitChar n) = some n := by
  decide

theorem readHex_hex {width n : Nat} (h : n < 16 ^ width) : readHex (hex width n) = some n := by
  induction width generalizing n with
  | zero =>
    obtain rfl : n = 0 := by omega
    rfl
  | succ width ih =>
    have hrec := ih (show n / 16 < 16 ^ width by omega)
    unfold readHex at hrec ⊢
    rw [hex, List.foldlM_append, hrec]
    simp [hexValue_digitChar _ (Nat.mod_lt n (by omega : 0 < 16)), Nat.div_add_mod]

theorem scanUnits_short {c : Char} (hc : c ≠ 'u') (text : List Char) :
    scanUnits (backslash :: c :: text) =
      (unescape c).bind fun unit =>
        (scanUnits text).map fun (units, rest) => (unit :: units, rest) := by
  rw [scanUnits.eq_def]
  dsimp only
  rw [if_neg (by decide), if_pos rfl]
  split
  · rename_i heq
    cases heq
  · rename_i heq
    exact absurd (List.cons.inj heq).1 hc
  · rename_i heq
    obtain ⟨rfl, rfl⟩ := List.cons.inj heq
    cases scanUnits text <;> rfl

theorem scanUnits_plain {c : Char} (hquote : c ≠ quotationMark) (hbackslash : c ≠ backslash)
    (hc : 0x20 ≤ c.toNat) (text : List Char) :
    scanUnits (c :: text) =
      (scanUnits text).map fun (units, rest) => (c.toNat :: units, rest) := by
  rw [scanUnits.eq_def]
  dsimp only
  rw [if_neg hquote, if_neg hbackslash, if_neg (by omega)]
  cases scanUnits text <;> rfl

/-- Four hexadecimal digits after the letter make a code unit. -/
theorem scanUnits_unicodeEscape {unit : Nat} (h : unit < 0x10000) (text : List Char) :
    scanUnits (unicodeEscape unit ++ text) =
      (scanUnits text).map fun (units, rest) => (unit :: units, rest) := by
  have hread := readHex_hex (show unit < 16 ^ 4 by omega)
  simp only [hex, List.nil_append, List.cons_append] at hread
  simp only [unicodeEscape, hex, List.nil_append, List.cons_append, scanUnits]
  rw [if_neg (by decide), if_pos trivial, hread]
  cases scanUnits text <;> rfl

theorem scanUnits_unicodeEscapes {units : List Nat} (h : ∀ unit ∈ units, unit < 0x10000)
    (text : List Char) :
    scanUnits (units.flatMap unicodeEscape ++ text) =
      (scanUnits text).map fun (units', rest) => (units ++ units', rest) := by
  induction units with
  | nil => cases hscan : scanUnits text <;> simp [hscan]
  | cons unit units ih =>
    obtain ⟨hunit, hunits⟩ := List.forall_mem_cons.mp h
    rw [List.flatMap_cons, List.append_assoc, scanUnits_unicodeEscape hunit, ih hunits]
    cases scanUnits text <;> rfl

theorem toNat_valid (c : Char) : c.toNat < 0xd800 ∨ 0xdfff < c.toNat ∧ c.toNat < 0x110000 := c.valid

theorem codeUnits_lt {c : Char} : ∀ unit ∈ codeUnits c, unit < 0x10000 := by
  have hvalid := toNat_valid c
  unfold codeUnits
  split
  · simpa
  · simp only [List.forall_mem_cons, List.not_mem_nil, false_implies, implies_true, and_true]
    omega

/-- The letters after a backslash give their characters back. -/
theorem unescape_short : ∀ entry ∈ shortEscapes, entry.1 ≠ 'u' ∧
    unescape entry.1 = some entry.2.toNat ∧ codeUnits entry.2 = [entry.2.toNat] := by
  decide

theorem scanUnits_escapeChar (c : Char) (text : List Char) :
    scanUnits (escapeChar c ++ text) =
      (scanUnits text).map fun (units, rest) => (codeUnits c ++ units, rest) := by
  unfold escapeChar
  split
  · rename_i entry hfind
    obtain ⟨hu, hunescape, hunits⟩ := unescape_short entry (List.mem_of_find?_eq_some hfind)
    have hc : entry.2 = c := by simpa using List.find?_some hfind
    subst hc
    exact (scanUnits_short hu text).trans (by rw [hunescape, hunits]; rfl)
  · rename_i hfind
    have hquote : c ≠ quotationMark := by
      rintro rfl
      cases hfind
    have hbackslash : c ≠ backslash := by
      rintro rfl
      cases hfind
    split
    · rename_i hc
      have hunits : codeUnits c = [c.toNat] := if_pos (by omega)
      exact (scanUnits_plain hquote hbackslash hc.1 text).trans (by rw [hunits]; rfl)
    · exact scanUnits_unicodeEscapes codeUnits_lt text

/-- The code units of a character are joined to it again. -/
theorem joinSurrogates_codeUnits (c : Char) (units : List Nat) :
    joinSurrogates (codeUnits c ++ units) = c :: joinSurrogates units := by
  have hvalid := toNat_valid c
  unfold codeUnits
  split
  · have hhigh : isHigh c.toNat = false := by simp only [isHigh, decide_eq_false_iff_not]; omega
    have hlow : isLow c.toNat = false := by simp only [isLow, decide_eq_false_iff_not]; omega
    have hchar : charOf c.toNat = c := by simp [charOf, hhigh, hlow]
    cases units <;> simp [joinSurrogates, hhigh, hchar]
  · have hhigh : isHigh (0xd800 + (c.toNat - 0x10000) / 0x400) = true := by
      simp only [isHigh, decide_eq_true_eq]
      omega
    have hlow : isLow (0xdc00 + (c.toNat - 0x10000) % 0x400) = true := by
      simp only [isLow, decide_eq_true_eq]
      omega
    have hjoin : 0x10000 + (0xd800 + (c.toNat - 0x10000) / 0x400 - 0xd800) * 0x400 +
        (0xdc00 + (c.toNat - 0x10000) % 0x400 - 0xdc00) = c.toNat := by
      omega
    simp only [List.cons_append, List.nil_append, joinSurrogates, hhigh, hlow, Bool.and_self,
      if_true, hjoin, Char.ofNat_toNat]

/-- What is written between quotation marks is read back. -/
theorem scanString_quote (s : String) (rest : List Char) :
    scanString (s.toList.flatMap escapeChar ++ quotationMark :: rest) = some (s, rest) := by
  have hunits (cs : List Char) :
      scanUnits (cs.flatMap escapeChar ++ quotationMark :: rest) =
        some (cs.flatMap codeUnits, rest) := by
    induction cs with
    | nil => exact (scanUnits.eq_def _).trans (if_pos rfl)
    | cons c cs ih =>
      rw [List.flatMap_cons, List.append_assoc, scanUnits_escapeChar, ih]
      rfl
  have hjoin (cs : List Char) : joinSurrogates (cs.flatMap codeUnits) = cs := by
    induction cs with
    | nil => rfl
    | cons c cs ih => rw [List.flatMap_cons, joinSurrogates_codeUnits, ih]
  rw [scanString, hunits]
  simp [hjoin]

theorem length_scanUnits {text rest : List Char} {units : List Nat}
    (h : scanUnits text = some (units, rest)) : rest.length < text.length := by
  fun_induction scanUnits text generalizing units rest with
  | case1 => cases h
  | case2 text =>
    cases h
    simp
  | case3 => cases h
  | case4 hquote a b c d text ih =>
    simp only [Option.bind_eq_bind, Option.bind_eq_some_iff, Option.some.injEq, Prod.mk.injEq] at h
    obtain ⟨unit, -, ⟨units, rest⟩, hscan, -, rfl⟩ := h
    have := ih hscan
    simp only [List.length_cons]
    omega
  | case5 hquote c text hu ih =>
    simp only [Option.bind_eq_bind, Option.bind_eq_some_iff, Option.some.injEq, Prod.mk.injEq] at h
    obtain ⟨unit, -, ⟨units, rest⟩, hscan, -, rfl⟩ := h
    have := ih hscan
    simp only [List.length_cons]
    omega
  | case6 => cases h
  | case7 c text hquote hbackslash hc ih =>
    simp only [Option.bind_eq_bind, Option.bind_eq_some_iff, Option.some.injEq, Prod.mk.injEq] at h
    obtain ⟨⟨units, rest⟩, hscan, -, rfl⟩ := h
    have := ih hscan
    simp only [List.length_cons]
    omega

theorem length_scanString {text rest : List Char} {s : String}
    (h : scanString text = some (s, rest)) : rest.length < text.length := by
  obtain ⟨⟨units, rest⟩, hscan, heq⟩ := Option.map_eq_some_iff.mp h
  cases heq
  exact length_scanUnits hscan

/-! Numbers. -/

/-- The text after the character, when it begins with it. -/
def expect (c : Char) : List Char → Option (List Char)
  | [] => none
  | c' :: text => if c' = c then some text else none

@[simp] theorem expect_nil (c : Char) : expect c [] = none := rfl

@[simp] theorem expect_self (c : Char) (text : List Char) : expect c (c :: text) = some text :=
  if_pos rfl

theorem expect_eq_some {c : Char} {text rest : List Char} :
    expect c text = some rest ↔ text = c :: rest := by
  cases text with
  | nil => simp
  | cons c' text => simp [expect]

def scanInteger : List Char → Option (List Char × List Char)
  | [] => none
  | c :: text =>
    if c = '0' then some ([c], text)
    else if c.isDigit then
      some (c :: text.takeWhile Char.isDigit, text.dropWhile Char.isDigit)
    else none

/-- The point is part of the number only with a digit after it. -/
def scanFraction (text : List Char) : List Char × List Char :=
  match expect '.' text with
  | none => ([], text)
  | some digits =>
    if digits.takeWhile Char.isDigit = [] then ([], text)
    else ('.' :: digits.takeWhile Char.isDigit, digits.dropWhile Char.isDigit)

def scanSign : List Char → List Char × List Char
  | [] => ([], [])
  | c :: text => if c = '+' ∨ c = '-' then ([c], text) else ([], c :: text)

/-- The letter is part of the number only with a digit after it and its sign. -/
def scanExponent : List Char → List Char × List Char
  | [] => ([], [])
  | c :: text =>
    if c = 'e' ∨ c = 'E' then
      let (sign, digits) := scanSign text
      if digits.takeWhile Char.isDigit = [] then ([], c :: text)
      else (c :: (sign ++ digits.takeWhile Char.isDigit), digits.dropWhile Char.isDigit)
    else ([], c :: text)

/-- A number as it is written, and whether it is a `float`. -/
structure Literal where
  text : List Char
  isFloat : Bool
  deriving DecidableEq

/-- What follows the digits before the point. -/
def scanAfter (sign : List Char) (integer : List Char × List Char) :
    Option (Literal × List Char) :=
  let (digits, text) := integer
  let (fraction, text) := scanFraction text
  let (exponent, rest) := scanExponent text
  some (⟨sign ++ digits ++ fraction ++ exponent, fraction ++ exponent ≠ []⟩, rest)

def scanNumber (text : List Char) : Option (Literal × List Char) :=
  match expect '-' text with
  | some text => (scanInteger text).bind (scanAfter ['-'])
  | none => (scanInteger text).bind (scanAfter [])

def intText (n : Int) : List Char :=
  if n < 0 then '-' :: Nat.toDigits 10 n.natAbs else Nat.toDigits 10 n.natAbs

def readInt (literal : List Char) : Int :=
  match expect '-' literal with
  | some digits => -(Nat.ofDigitChars 10 digits 0 : Int)
  | none => (Nat.ofDigitChars 10 literal 0 : Int)

def closeBrace : Char := Char.ofNat 0x7d

def openBrace : Char := Char.ofNat 0x7b

/-- What comes after a value. -/
def delimiters : List Char := [',', ']', closeBrace]

theorem forall_delimiters {p : Char → Prop} (hcomma : p ',') (hbracket : p ']')
    (hbrace : p closeBrace) : ∀ c ∈ delimiters, p c := by
  simp [delimiters, hcomma, hbracket, hbrace]

theorem not_isDigit_of_delimiter : ∀ c ∈ delimiters, c.isDigit = false :=
  forall_delimiters rfl rfl rfl

def Stops (rest : List Char) : Prop := ∀ c ∈ rest.head?, c ∈ delimiters

section stops

variable {rest : List Char} (h : Stops rest)

include h

theorem Stops.takeWhile_append {p : Char → Bool} (hp : ∀ c ∈ delimiters, p c = false)
    (text : List Char) : (text ++ rest).takeWhile p = text.takeWhile p ∧
      (text ++ rest).dropWhile p = text.dropWhile p ++ rest := by
  induction text with
  | nil =>
    cases rest with
    | nil => exact ⟨rfl, rfl⟩
    | cons c rest =>
      have hc := hp c (h c rfl)
      simp [hc]
  | cons c text ih =>
    cases hc : p c
    · simp [hc]
    · simp [hc, ih]

theorem Stops.expect_append {c : Char} (hc : c ∉ delimiters) (text : List Char) :
    expect c (text ++ rest) = (expect c text).map (· ++ rest) := by
  cases text with
  | nil =>
    cases rest with
    | nil => rfl
    | cons c' rest =>
      refine if_neg ?_
      rintro rfl
      exact hc (h c' rfl)
  | cons c' text =>
    by_cases heq : c' = c
    · simp [expect, heq]
    · simp [expect, heq]

theorem Stops.scanInteger_append (text : List Char) :
    scanInteger (text ++ rest) =
      (scanInteger text).map fun (integer, rest') => (integer, rest' ++ rest) := by
  cases text with
  | nil =>
    cases rest with
    | nil => rfl
    | cons c rest =>
      have hdelimiters : ∀ c ∈ delimiters, c ≠ '0' ∧ c.isDigit = false :=
        forall_delimiters (by decide) (by decide) (by decide)
      simp [scanInteger, hdelimiters c (h c rfl)]
  | cons c text =>
    obtain ⟨htake, hdrop⟩ := h.takeWhile_append not_isDigit_of_delimiter text
    simp only [List.cons_append, scanInteger, htake, hdrop]
    split
    · rfl
    · split <;> rfl

theorem Stops.scanFraction_append (text : List Char) :
    scanFraction (text ++ rest) = ((scanFraction text).1, (scanFraction text).2 ++ rest) := by
  simp only [scanFraction, h.expect_append (c := '.') (by decide)]
  cases expect '.' text with
  | none => rfl
  | some digits =>
    obtain ⟨htake, hdrop⟩ := h.takeWhile_append not_isDigit_of_delimiter digits
    simp only [Option.map_some, htake, hdrop]
    split <;> rfl

theorem Stops.scanSign_append (text : List Char) :
    scanSign (text ++ rest) = ((scanSign text).1, (scanSign text).2 ++ rest) := by
  cases text with
  | nil =>
    cases rest with
    | nil => rfl
    | cons c rest =>
      have hdelimiters : ∀ c ∈ delimiters, ¬ (c = '+' ∨ c = '-') :=
        forall_delimiters (by decide) (by decide) (by decide)
      exact if_neg (hdelimiters c (h c rfl))
  | cons c text =>
    simp only [List.cons_append, scanSign]
    split <;> rfl

theorem Stops.scanExponent_append (text : List Char) :
    scanExponent (text ++ rest) = ((scanExponent text).1, (scanExponent text).2 ++ rest) := by
  cases text with
  | nil =>
    cases rest with
    | nil => rfl
    | cons c rest =>
      have hdelimiters : ∀ c ∈ delimiters, ¬ (c = 'e' ∨ c = 'E') :=
        forall_delimiters (by decide) (by decide) (by decide)
      exact if_neg (hdelimiters c (h c rfl))
  | cons c text =>
    obtain ⟨htake, hdrop⟩ := h.takeWhile_append not_isDigit_of_delimiter (scanSign text).2
    simp only [List.cons_append, scanExponent, h.scanSign_append, htake, hdrop]
    split
    · split <;> rfl
    · rfl

/-- A number ends where the text after it cannot go on. -/
theorem Stops.scanNumber_append (text : List Char) :
    scanNumber (text ++ rest) =
      (scanNumber text).map fun (literal, rest') => (literal, rest' ++ rest) := by
  have hinteger (sign text : List Char) :
      (scanInteger (text ++ rest)).bind (scanAfter sign) =
        ((scanInteger text).bind (scanAfter sign)).map fun (literal, rest') =>
          (literal, rest' ++ rest) := by
    rw [h.scanInteger_append]
    cases scanInteger text with
    | none => rfl
    | some integer =>
      simp [scanAfter, h.scanFraction_append, h.scanExponent_append]
  unfold scanNumber
  rw [h.expect_append (c := '-') (by decide)]
  cases expect '-' text with
  | none => exact hinteger [] text
  | some text => exact hinteger ['-'] text

end stops

/-! What is scanned is the front of the text. -/

theorem scanInteger_eq_some {text digits rest : List Char}
    (h : scanInteger text = some (digits, rest)) : text = digits ++ rest ∧ digits ≠ [] := by
  cases text with
  | nil => cases h
  | cons c text =>
    simp only [scanInteger] at h
    split_ifs at h with hzero hdigit
    · cases h
      simp
    · cases h
      simp

theorem scanFraction_append_self (text : List Char) :
    (scanFraction text).1 ++ (scanFraction text).2 = text := by
  unfold scanFraction
  split
  · rfl
  · rename_i digits hdigits
    obtain rfl := expect_eq_some.mp hdigits
    split_ifs
    · rfl
    · simp

theorem scanSign_append_self (text : List Char) :
    (scanSign text).1 ++ (scanSign text).2 = text := by
  cases text with
  | nil => rfl
  | cons c text =>
    simp only [scanSign]
    split_ifs <;> rfl

theorem scanExponent_append_self (text : List Char) :
    (scanExponent text).1 ++ (scanExponent text).2 = text := by
  cases text with
  | nil => rfl
  | cons c text =>
    simp only [scanExponent]
    split_ifs
    · rfl
    · simp [scanSign_append_self]
    · rfl

theorem scanAfter_eq_some {sign digits text rest : List Char} {literal : Literal}
    (hdigits : digits ≠ []) (h : scanAfter sign (digits, text) = some (literal, rest)) :
    sign ++ (digits ++ text) = literal.text ++ rest ∧ literal.text ≠ [] := by
  simp only [scanAfter, Option.some.injEq, Prod.mk.injEq] at h
  obtain ⟨rfl, rfl⟩ := h
  simp [scanExponent_append_self, scanFraction_append_self, hdigits]

theorem scanNumber_eq_some {text rest : List Char} {literal : Literal}
    (h : scanNumber text = some (literal, rest)) :
    text = literal.text ++ rest ∧ literal.text ≠ [] := by
  have hinteger {sign text : List Char}
      (h : (scanInteger text).bind (scanAfter sign) = some (literal, rest)) :
      sign ++ text = literal.text ++ rest ∧ literal.text ≠ [] := by
    obtain ⟨⟨digits, text⟩, hscan, hafter⟩ := Option.bind_eq_some_iff.mp h
    obtain ⟨rfl, hne⟩ := scanInteger_eq_some hscan
    exact scanAfter_eq_some hne hafter
  unfold scanNumber at h
  split at h
  · rename_i text hsign
    rw [expect_eq_some.mp hsign]
    exact hinteger h
  · exact hinteger h

theorem scanInteger_head {text : List Char} (h : scanInteger text ≠ none) :
    ∃ c text', text = c :: text' ∧ c.isDigit = true := by
  cases text with
  | nil => exact absurd rfl h
  | cons c text =>
    refine ⟨c, text, rfl, ?_⟩
    by_cases hzero : c = '0'
    · rw [hzero]
      rfl
    · by_contra hdigit
      simp [scanInteger, hzero, hdigit] at h

/-- A number begins with a digit, or with a sign and a digit. -/
theorem scanNumber_head {text : List Char} (h : scanNumber text ≠ none) :
    ∃ sign c text', text = sign ++ c :: text' ∧ (sign = [] ∨ sign = ['-']) ∧ c.isDigit = true := by
  have hinteger {sign text : List Char} (h : (scanInteger text).bind (scanAfter sign) ≠ none) :
      ∃ c text', text = c :: text' ∧ c.isDigit = true := by
    refine scanInteger_head fun hnone => h ?_
    rw [hnone]
    rfl
  unfold scanNumber at h
  split at h
  · rename_i digits hsign
    obtain ⟨c, text', rfl, hc⟩ := hinteger h
    exact ⟨['-'], c, text', expect_eq_some.mp hsign, .inr rfl, hc⟩
  · obtain ⟨c, text', rfl, hc⟩ := hinteger h
    exact ⟨[], c, text', rfl, .inl rfl, hc⟩

theorem length_scanNumber {text rest : List Char} {literal : Literal}
    (h : scanNumber text = some (literal, rest)) : rest.length < text.length := by
  obtain ⟨rfl, hne⟩ := scanNumber_eq_some h
  have := List.length_pos_iff.mpr hne
  simp only [List.length_append]
  omega

theorem toDigits_head {n : Nat} (hn : 0 < n) :
    ∃ c digits, Nat.toDigits 10 n = c :: digits ∧ c ≠ '0' := by
  induction n using Nat.strong_induction_on with
  | h n ih =>
    rw [Nat.toDigits_eq_if (by decide)]
    split
    · rename_i hlt
      refine ⟨_, [], rfl, ?_⟩
      interval_cases n <;> decide
    · obtain ⟨c, digits, heq, hc⟩ := ih (n / 10) (by omega) (by omega)
      exact ⟨c, _, by rw [heq]; rfl, hc⟩

theorem scanInteger_toDigits (n : Nat) :
    scanInteger (Nat.toDigits 10 n) = some (Nat.toDigits 10 n, []) := by
  have hdigits : ∀ c ∈ Nat.toDigits 10 n, c.isDigit = true := fun c hc =>
    Nat.isDigit_of_mem_toDigits (by decide) (by decide) hc
  rcases Nat.eq_zero_or_pos n with rfl | hn
  · rfl
  · obtain ⟨c, digits, heq, hc⟩ := toDigits_head hn
    rw [heq] at hdigits ⊢
    obtain ⟨hfirst, hrest⟩ := List.forall_mem_cons.mp hdigits
    have htake : digits.takeWhile Char.isDigit = digits := List.takeWhile_eq_self_iff.mpr hrest
    have hdrop : digits.dropWhile Char.isDigit = [] := List.dropWhile_eq_nil_iff.mpr hrest
    simp [scanInteger, hc, hfirst, htake, hdrop]

theorem expect_toDigits (n : Nat) : expect '-' (Nat.toDigits 10 n) = none := by
  cases hdigits : Nat.toDigits 10 n with
  | nil => rfl
  | cons c digits =>
    refine if_neg ?_
    rintro rfl
    have := Nat.isDigit_of_mem_toDigits (by decide) (by decide) (hdigits ▸ List.mem_cons_self)
    cases this

/-- An integer is read from its digits. -/
theorem scanNumber_intText (n : Int) : scanNumber (intText n) = some (⟨intText n, false⟩, []) := by
  unfold intText
  split_ifs
  · simp [scanNumber, scanInteger_toDigits, scanAfter, scanFraction, scanExponent]
  · simp [scanNumber, expect_toDigits, scanInteger_toDigits, scanAfter, scanFraction, scanExponent]

theorem readInt_intText (n : Int) : readInt (intText n) = n := by
  unfold readInt intText
  split_ifs with hneg
  · simp only [expect_self, Nat.ofDigitChars_ten_toDigits]
    omega
  · simp only [expect_toDigits, Nat.ofDigitChars_ten_toDigits]
    omega

end Lib.JsonLexeme
