import Marty.Lib.JsonLexeme

/-! UUIDs and their texts of 32 hexadecimal digits.  The other texts that are read, with braces or
a scheme, are left out. -/

namespace Lib.Uuid

open Lib.Repr (hex)
open Lib.JsonLexeme (readHex)

structure UUID where
  int : Nat
  int_lt : int < 16 ^ 32
  deriving DecidableEq

/-- A hyphen after 8, 12, 16 and 20 digits. -/
def hyphenate (digits : List Char) : List Char :=
  digits.take 8 ++ '-' :: ((digits.drop 8).take 4 ++ '-' :: ((digits.drop 12).take 4 ++
    '-' :: ((digits.drop 16).take 4 ++ '-' :: digits.drop 20)))

/-- `str(id)` -/
def UUID.text (id : UUID) : String := String.ofList (hyphenate (hex 32 id.int))

/-- `UUID(text)` -/
def ofText (text : String) : Option UUID :=
  let digits := text.toList.filter (· ≠ '-')
  if digits.length = 32 then
    (readHex digits).bind fun n => if h : n < 16 ^ 32 then some ⟨n, h⟩ else none
  else none

theorem length_hex (width n : Nat) : (hex width n).length = width := by
  induction width generalizing n with
  | zero => rfl
  | succ width ih => rw [hex, List.length_append, ih, List.length_singleton]

theorem digitChar_ne_hyphen : ∀ n < 16, Nat.digitChar n ≠ '-' := by decide

theorem ne_hyphen_of_mem_hex {c : Char} {width n : Nat} (h : c ∈ hex width n) : c ≠ '-' := by
  induction width generalizing n with
  | zero => cases h
  | succ width ih =>
    rcases List.mem_append.mp h with hinit | hlast
    · exact ih hinit
    · rw [List.mem_singleton.mp hlast]
      exact digitChar_ne_hyphen _ (Nat.mod_lt n (by decide))

theorem filter_hyphenate {digits : List Char} (h : ∀ c ∈ digits, c ≠ '-') :
    (hyphenate digits).filter (· ≠ '-') = digits := by
  have hself : ∀ part : List Char, part.Sublist digits → part.filter (· ≠ '-') = part :=
    fun part hpart => List.filter_eq_self.mpr fun c hc => decide_eq_true (h c (hpart.subset hc))
  have hpart : ∀ m n, ((digits.drop m).take n).Sublist digits :=
    fun m n => (List.take_sublist _ _).trans (List.drop_sublist _ _)
  have hhyphen : ∀ text : List Char, ('-' :: text).filter (· ≠ '-') = text.filter (· ≠ '-') :=
    fun text => List.filter_cons_of_neg (by simp)
  have hsplit : ∀ m n, (digits.drop m).take n ++ digits.drop (m + n) = digits.drop m := by
    intro m n
    rw [← List.drop_drop, List.take_append_drop]
  rw [hyphenate, List.filter_append, hself _ (List.take_sublist _ _), hhyphen, List.filter_append,
    hself _ (hpart 8 4), hhyphen, List.filter_append, hself _ (hpart 12 4), hhyphen,
    List.filter_append, hself _ (hpart 16 4), hhyphen, hself _ (List.drop_sublist _ _),
    hsplit 16 4, hsplit 12 4, hsplit 8 4, List.take_append_drop]

theorem ofText_text (id : UUID) : ofText id.text = some id := by
  have hdigits : (hyphenate (hex 32 id.int)).filter (· ≠ '-') = hex 32 id.int :=
    filter_hyphenate fun c hc => ne_hyphen_of_mem_hex hc
  rw [ofText, UUID.text, String.toList_ofList, hdigits]
  simp only [length_hex, if_true, JsonLexeme.readHex_hex id.int_lt, Option.bind_some]
  exact dif_pos id.int_lt

end Lib.Uuid
