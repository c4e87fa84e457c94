import Marty.Lib.Cedar
import Marty.Lib.JsonLexeme
import Marty.Lib.Text

/-! String literals and entity UIDs as Cedar writes them.  `bare` says which characters a literal
takes as they are: it takes no quotation mark and no backslash, and like a literal of Rust it need
not take a carriage return. -/

namespace Lib.CedarText

open Lib.Cedar (EntityUID)
open Lib.Repr (apostrophe backslash quotationMark)
open Lib.JsonLexeme (closeBrace openBrace readHex)

/-- The escape sequences with one character after the backslash. -/
def simpleEscapes : List (Char × Char) := [
  ('n', '\n'), ('r', '\r'), ('t', '\t'), ('0', Char.ofNat 0), (backslash, backslash),
  (apostrophe, apostrophe), (quotationMark, quotationMark)]

/-- A code point in braces has at most six digits, and may have underscores between them. -/
def readCodePoint (text : List Char) : Option (Char × List Char) :=
  let digits := (text.takeWhile (· != closeBrace)).filter (· != '_')
  if 1 ≤ digits.length ∧ digits.length ≤ 6 then
    match readHex digits, text.dropWhile (· != closeBrace) with
    | some n, _ :: rest => if n.isValidChar then some (Char.ofNat n, rest) else none
    | _, _ => none
  else none

/-- What an escape sequence stands for, after its backslash. -/
def readEscape : List Char → Option (Char × List Char)
  | 'x' :: a :: b :: rest =>
    match readHex [a, b] with
    | some n => if n < 128 then some (Char.ofNat n, rest) else none
    | none => none
  | 'u' :: c :: rest => if c = openBrace then readCodePoint rest else none
  | c :: rest => (simpleEscapes.lookup c).map (·, rest)
  | [] => none

/-- A literal after its first quotation mark, up to the second.  The number bounds its length. -/
def readLiteral (bare : Char → Bool) : Nat → List Char → Option (List Char × List Char)
  | 0, _ | _, [] => none
  | n + 1, c :: text =>
    if c = quotationMark then some ([], text)
    else if c = backslash then
      (readEscape text).bind fun escaped =>
        (readLiteral bare n escaped.2).map fun read => (escaped.1 :: read.1, read.2)
    else if bare c then (readLiteral bare n text).map fun read => (c :: read.1, read.2)
    else none

def isIdentifier (name : List Char) : Bool :=
  match name with
  | [] => false
  | c :: cs => (c.isAlpha || c == '_') && cs.all fun c => c.isAlphanum || c == '_'

/-- The parts between colons of identifiers with two colons after each. -/
def isPath : List (List Char) → Bool
  | [name, [], []] => isIdentifier name
  | name :: [] :: rest => isIdentifier name && isPath rest
  | _ => false

/-- The entity UID that a text denotes, as `Namespace::Type::"id"`. -/
def readUid (bare : Char → Bool) (s : String) : Option EntityUID :=
  let (path, text) := Text.partition quotationMark s
  match readLiteral bare text.length text.toList with
  | some (id, []) =>
    if isPath (path.toList.splitOn ':') then
      some ⟨String.ofList (path.toList.dropLast.dropLast), String.ofList id⟩
    else none
  | _ => none

/-- The character stands for itself in a literal. -/
def Plain (bare : Char → Bool) (c : Char) : Prop :=
  c ≠ quotationMark ∧ c ≠ backslash ∧ bare c = true

instance (bare : Char → Bool) (c : Char) : Decidable (Plain bare c) :=
  inferInstanceAs (Decidable (_ ∧ _ ∧ _))

variable {bare : Char → Bool} {text rest s : List Char} {c : Char} {n : Nat}

theorem length_readCodePoint (h : readCodePoint text = some (c, rest)) :
    rest.length < text.length := by
  unfold readCodePoint at h
  dsimp only at h
  split at h
  case isFalse => cases h
  case isTrue =>
    split at h
    case h_1 n brace after hread hafter =>
      split at h
      case isFalse => cases h
      case isTrue =>
        cases h
        have hlength := (List.dropWhile_sublist (l := text) (· != closeBrace)).length_le
        rw [hafter, List.length_cons] at hlength
        exact hlength
    case h_2 => cases h

theorem length_readEscape (h : readEscape text = some (c, rest)) : rest.length < text.length := by
  unfold readEscape at h
  split at h
  case h_1 a b rest' =>
    split at h
    case h_1 =>
      split at h
      case isTrue =>
        cases h
        simp only [List.length_cons]
        omega
      case isFalse => cases h
    case h_2 => cases h
  case h_2 c' rest' _ =>
    split at h
    case isTrue =>
      have hlength := length_readCodePoint h
      simp only [List.length_cons]
      omega
    case isFalse => cases h
  case h_3 c' rest' _ _ =>
    obtain ⟨c'', -, h⟩ := Option.map_eq_some_iff.mp h
    cases h
    exact Nat.lt_succ_self _
  case h_4 => cases h

/-- A literal stands for its own text, or for something shorter. -/
theorem readLiteral_cases (h : readLiteral bare n text = some (s, rest)) :
    (text = s ++ quotationMark :: rest ∧ ∀ c ∈ s, Plain bare c) ∨
      s.length + 1 + rest.length < text.length := by
  induction n generalizing text s with
  | zero => cases h
  | succ n ih =>
    cases text with
    | nil => cases h
    | cons c text =>
      rw [readLiteral] at h
      split at h
      case isTrue hquote =>
        cases h
        exact .inl ⟨by rw [hquote, List.nil_append], List.forall_mem_nil _⟩
      case isFalse hquote =>
        split at h
        case isTrue hbackslash =>
          obtain ⟨⟨c', after⟩, hescape, h⟩ := Option.bind_eq_some_iff.mp h
          obtain ⟨⟨s', rest'⟩, hread, h⟩ := Option.map_eq_some_iff.mp h
          cases h
          have hshort := length_readEscape hescape
          refine .inr ?_
          rcases ih hread with ⟨rfl, -⟩ | hlength
          · simp only [List.length_append, List.length_cons] at hshort ⊢
            omega
          · simp only [List.length_cons] at hlength ⊢
            omega
        case isFalse hbackslash =>
          split at h
          case isFalse => cases h
          case isTrue hbare =>
            obtain ⟨⟨s', rest'⟩, hread, h⟩ := Option.map_eq_some_iff.mp h
            cases h
            rcases ih hread with ⟨rfl, hplain⟩ | hlength
            · exact .inl ⟨rfl, List.forall_mem_cons.mpr ⟨⟨hquote, hbackslash, hbare⟩, hplain⟩⟩
            · refine .inr ?_
              simp only [List.length_cons] at hlength ⊢
              omega

theorem readLiteral_plain (h : ∀ c ∈ s, Plain bare c) (hn : s.length < n) :
    readLiteral bare n (s ++ quotationMark :: rest) = some (s, rest) := by
  induction s generalizing n with
  | nil =>
    obtain ⟨n, rfl⟩ := Nat.exists_eq_add_of_lt hn
    simp [readLiteral]
  | cons c s ih =>
    obtain ⟨⟨hquote, hbackslash, hbare⟩, h⟩ := List.forall_mem_cons.mp h
    obtain ⟨n, rfl⟩ : ∃ m, n = m + 1 := ⟨n - 1, by omega⟩
    rw [List.cons_append, readLiteral, if_neg hquote, if_neg hbackslash, if_pos hbare,
      ih h (by simpa using hn)]
    rfl

/-- A text in quotation marks denotes itself exactly when all of its characters do. -/
theorem readLiteral_eq_self_iff (hn : s.length < n) :
    readLiteral bare n (s ++ [quotationMark]) = some (s, []) ↔ ∀ c ∈ s, Plain bare c := by
  constructor
  · intro h
    rcases readLiteral_cases h with ⟨-, hplain⟩ | hlength
    · exact hplain
    · simp at hlength
  · exact fun h => readLiteral_plain h hn

theorem partition_quotationMark {path : List Char} (hpath : quotationMark ∉ path)
    (text : List Char) :
    Text.partition quotationMark (String.ofList (path ++ quotationMark :: text)) =
      (String.ofList path, String.ofList text) := by
  have hall : ∀ c ∈ path, (c != quotationMark) = true :=
    fun c hc => bne_iff_ne.mpr fun heq => hpath (heq ▸ hc)
  rw [Text.partition, String.toList_ofList, List.takeWhile_append_of_pos hall,
    List.dropWhile_append_of_pos hall, List.takeWhile_cons_of_neg (by simp),
    List.dropWhile_cons_of_neg (by simp), List.append_nil]
  rfl

/-- The UID with a text in quotation marks as its id. -/
theorem readUid_eq_iff {ty id : String} (hty : quotationMark ∉ ty.toList)
    (hpath : isPath ((ty.toList ++ [':', ':']).splitOn ':') = true) :
    readUid bare (ty ++ "::\"" ++ id ++ "\"") = some ⟨ty, id⟩ ↔ ∀ c ∈ id.toList, Plain bare c := by
  have htext : ty ++ "::\"" ++ id ++ "\"" = String.ofList
      ((ty.toList ++ [':', ':']) ++ quotationMark :: (id.toList ++ [quotationMark])) := by
    apply String.toList_injective
    simp only [String.toList_append, String.toList_ofList, List.append_assoc]
    rfl
  have hquote : quotationMark ∉ ty.toList ++ [':', ':'] := by
    rw [List.mem_append]
    rintro (h | h)
    · exact hty h
    · exact absurd h (by decide)
  have hlength : id.toList.length < (id.toList ++ [quotationMark]).length := by simp
  rw [← readLiteral_eq_self_iff hlength, readUid, htext, partition_quotationMark hquote]
  simp only [String.toList_ofList, String.length_ofList, hpath, if_true]
  have hdrop : (ty.toList ++ [':', ':']).dropLast.dropLast = ty.toList := by simp
  rw [hdrop]
  constructor
  · intro h
    split at h
    case h_1 id' hread =>
      have hid : String.ofList id' = id := congrArg EntityUID.id (Option.some.inj h)
      rw [hread, ← hid, String.toList_ofList]
    case h_2 => cases h
  · intro h
    rw [h]
    simp

end Lib.CedarText
