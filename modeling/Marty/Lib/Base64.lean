import Mathlib.Data.Nat.Notation

/-! Base64 as `base64.b64encode` and `base64.b64decode` have it.  The decoder skips the characters
outside the alphabet and stops at the padding of a complete group. -/

namespace Lib.Base64

abbrev Bytes := List UInt8

def alphabet : List Char :=
  ['A', 'B', 'C', 'D', 'E', 'F', 'G', 'H', 'I', 'J', 'K', 'L', 'M', 'N', 'O', 'P', 'Q', 'R', 'S',
    'T', 'U', 'V', 'W', 'X', 'Y', 'Z', 'a', 'b', 'c', 'd', 'e', 'f', 'g', 'h', 'i', 'j', 'k', 'l',
    'm', 'n', 'o', 'p', 'q', 'r', 's', 't', 'u', 'v', 'w', 'x', 'y', 'z', '0', '1', '2', '3', '4',
    '5', '6', '7', '8', '9', '+', '/']

def digit (sextet : ℕ) : Char := alphabet.getD sextet 'A'

def sextet? (ch : Char) : Option ℕ := alphabet.findIdx? (· = ch)

def encodeChars : Bytes → List Char
  | [] => []
  | [a] => [digit (a.toNat / 4), digit (a.toNat % 4 * 16), '=', '=']
  | [a, b] =>
    [digit (a.toNat / 4), digit (a.toNat % 4 * 16 + b.toNat / 16), digit (b.toNat % 16 * 4), '=']
  | a :: b :: c :: rest =>
    digit (a.toNat / 4) :: digit (a.toNat % 4 * 16 + b.toNat / 16) ::
      digit (b.toNat % 16 * 4 + c.toNat / 64) :: digit (c.toNat % 64) :: encodeChars rest

/-- Where the decoder stands in a group of four: the digits read, and the bits left over. -/
inductive Quad
  | none
  | one (left : ℕ)
  | two (left pads : ℕ)
  | three (left : ℕ)

/-- One digit: the byte it completes, and the new position. -/
def Quad.push (v : ℕ) : Quad → List UInt8 × Quad
  | .none => ([], .one v)
  | .one left => ([UInt8.ofNat (left * 4 + v / 16)], .two (v % 16) 0)
  | .two left _ => ([UInt8.ofNat (left * 16 + v / 4)], .three (v % 4))
  | .three left => ([UInt8.ofNat (left * 64 + v)], .none)

/-- One `=`; the input ends there when it fills the group. -/
def Quad.pad : Quad → Option Quad
  | .two left 0 => some (.two left 1)
  | .two _ _ => Option.none
  | .three _ => Option.none
  | q => some q

/-- `none` for input that ends inside a group. -/
def decodeChars : Quad → List Char → Option Bytes
  | .none, [] => some []
  | _, [] => none
  | q, ch :: chars =>
    if ch = '=' then
      match q.pad with
      | none => some []
      | some q => decodeChars q chars
    else
      match sextet? ch with
      | none => decodeChars q chars
      | some v => (decodeChars (q.push v).2 chars).map ((q.push v).1 ++ ·)

def b64encode (data : Bytes) : String := String.ofList (encodeChars data)

/-- `none` also for text outside ASCII. -/
def b64decode (text : String) : Option Bytes :=
  if text.toList.all (·.toNat < 128) then decodeChars .none text.toList else none

theorem sextet?_digit : ∀ n < 64, sextet? (digit n) = some n := by decide

theorem digit_ne_pad : ∀ n < 64, digit n ≠ '=' := by decide

theorem decodeChars_digit {n : ℕ} (hn : n < 64) (q : Quad) (chars : List Char) :
    decodeChars q (digit n :: chars) =
      (decodeChars (q.push n).2 chars).map ((q.push n).1 ++ ·) := by
  rw [decodeChars, if_neg (digit_ne_pad n hn), sextet?_digit n hn]

theorem ofNat_eq {n : ℕ} {a : UInt8} (h : n = a.toNat) : UInt8.ofNat n = a := by
  rw [h, UInt8.ofNat_toNat]

theorem decodeChars_encodeChars (data : Bytes) :
    decodeChars .none (encodeChars data) = some data := by
  induction data using encodeChars.induct with
  | case1 => rfl
  | case2 a =>
    have ha := a.toNat_lt
    have h₁ : UInt8.ofNat (a.toNat / 4 * 4 + a.toNat % 4 * 16 / 16) = a := ofNat_eq (by omega)
    rw [encodeChars, decodeChars_digit (by omega), decodeChars_digit (by omega)]
    simp only [Quad.push, decodeChars, Quad.pad, h₁, if_pos]
    rfl
  | case3 a b =>
    have ha := a.toNat_lt
    have hb := b.toNat_lt
    have h₁ : UInt8.ofNat (a.toNat / 4 * 4 + (a.toNat % 4 * 16 + b.toNat / 16) / 16) = a :=
      ofNat_eq (by omega)
    have h₂ : UInt8.ofNat
        ((a.toNat % 4 * 16 + b.toNat / 16) % 16 * 16 + b.toNat % 16 * 4 / 4) = b :=
      ofNat_eq (by omega)
    rw [encodeChars, decodeChars_digit (by omega), decodeChars_digit (by omega),
      decodeChars_digit (by omega)]
    simp only [Quad.push, decodeChars, Quad.pad, h₁, h₂, if_pos]
    rfl
  | case4 a b c rest ih =>
    have ha := a.toNat_lt
    have hb := b.toNat_lt
    have hc := c.toNat_lt
    have h₁ : UInt8.ofNat (a.toNat / 4 * 4 + (a.toNat % 4 * 16 + b.toNat / 16) / 16) = a :=
      ofNat_eq (by omega)
    have h₂ : UInt8.ofNat ((a.toNat % 4 * 16 + b.toNat / 16) % 16 * 16 +
        (b.toNat % 16 * 4 + c.toNat / 64) / 4) = b := ofNat_eq (by omega)
    have h₃ : UInt8.ofNat ((b.toNat % 16 * 4 + c.toNat / 64) % 4 * 64 + c.toNat % 64) = c :=
      ofNat_eq (by omega)
    rw [encodeChars, decodeChars_digit (by omega), decodeChars_digit (by omega),
      decodeChars_digit (by omega), decodeChars_digit (by omega)]
    simp only [Quad.push, h₁, h₂, h₃, ih]
    rfl

theorem digit_lt : ∀ n < 64, (digit n).toNat < 128 := by decide

theorem encodeChars_lt (data : Bytes) : ∀ ch ∈ encodeChars data, ch.toNat < 128 := by
  induction data using encodeChars.induct with
  | case1 => simp [encodeChars]
  | case2 a =>
    have ha := a.toNat_lt
    simp only [encodeChars, List.forall_mem_cons]
    exact ⟨digit_lt _ (by omega), digit_lt _ (by omega), by decide, by decide, by simp⟩
  | case3 a b =>
    have ha := a.toNat_lt
    have hb := b.toNat_lt
    simp only [encodeChars, List.forall_mem_cons]
    exact ⟨digit_lt _ (by omega), digit_lt _ (by omega), digit_lt _ (by omega), by decide, by simp⟩
  | case4 a b c rest ih =>
    have ha := a.toNat_lt
    have hb := b.toNat_lt
    have hc := c.toNat_lt
    simp only [encodeChars, List.forall_mem_cons]
    exact ⟨digit_lt _ (by omega), digit_lt _ (by omega), digit_lt _ (by omega),
      digit_lt _ (by omega), ih⟩

theorem length_encodeChars_mod (data : Bytes) : (encodeChars data).length % 4 = 0 := by
  induction data using encodeChars.induct with
  | case1 => rfl
  | case2 a => simp [encodeChars]
  | case3 a b => simp [encodeChars]
  | case4 a b c rest ih =>
    simp only [encodeChars, List.length_cons]
    omega

theorem encodeChars_eq_nil_iff {data : Bytes} : encodeChars data = [] ↔ data = [] := by
  constructor
  · intro h
    have hdecode := decodeChars_encodeChars data
    rw [h] at hdecode
    exact (Option.some.inj hdecode).symm
  · rintro rfl
    rfl

theorem b64decode_b64encode (data : Bytes) : b64decode (b64encode data) = some data := by
  have hascii : (encodeChars data).all (·.toNat < 128) = true := by
    simpa using encodeChars_lt data
  rw [b64decode, b64encode, String.toList_ofList, if_pos hascii, decodeChars_encodeChars]

/-! `base64.urlsafe_b64encode(data).rstrip(b"=")` -/

def urlsafeChar (ch : Char) : Char := if ch = '+' then '-' else if ch = '/' then '_' else ch

def standardChar (ch : Char) : Char := if ch = '-' then '+' else if ch = '_' then '/' else ch

/-- `chars.rstrip("=")` -/
def stripPads (chars : List Char) : List Char := (chars.reverse.dropWhile (· = '=')).reverse

def urlsafe (data : Bytes) : String :=
  String.ofList (stripPads ((encodeChars data).map urlsafeChar))

theorem digit_mem : ∀ n < 64, digit n ∈ alphabet := by decide

theorem standardChar_urlsafeChar : ∀ ch ∈ alphabet, standardChar (urlsafeChar ch) = ch := by
  have hall : alphabet.all (fun ch => standardChar (urlsafeChar ch) = ch) = true := by
    decide +kernel
  exact fun ch hch => of_decide_eq_true (List.all_eq_true.mp hall ch hch)

theorem urlsafeChar_ne_pad : ∀ ch ∈ alphabet, urlsafeChar ch ≠ '=' := by
  have hall : alphabet.all (fun ch => urlsafeChar ch ≠ '=') = true := by decide +kernel
  exact fun ch hch => of_decide_eq_true (List.all_eq_true.mp hall ch hch)

/-- The text without its padding, of which there is as much as the last group asks for. -/
theorem exists_unpadded (data : Bytes) : ∃ chars, (∀ ch ∈ chars, ch ∈ alphabet) ∧
    encodeChars data = chars ++ List.replicate ((4 - chars.length % 4) % 4) '=' := by
  induction data using encodeChars.induct with
  | case1 => exact ⟨[], by simp, rfl⟩
  | case2 a =>
    have ha := a.toNat_lt
    refine ⟨[digit (a.toNat / 4), digit (a.toNat % 4 * 16)], ?_, rfl⟩
    simp only [List.forall_mem_cons]
    exact ⟨digit_mem _ (by omega), digit_mem _ (by omega), by simp⟩
  | case3 a b =>
    have ha := a.toNat_lt
    have hb := b.toNat_lt
    refine ⟨[digit (a.toNat / 4), digit (a.toNat % 4 * 16 + b.toNat / 16),
      digit (b.toNat % 16 * 4)], ?_, rfl⟩
    simp only [List.forall_mem_cons]
    exact ⟨digit_mem _ (by omega), digit_mem _ (by omega), digit_mem _ (by omega), by simp⟩
  | case4 a b c rest ih =>
    have ha := a.toNat_lt
    have hb := b.toNat_lt
    have hc := c.toNat_lt
    obtain ⟨chars, hchars, heq⟩ := ih
    refine ⟨digit (a.toNat / 4) :: digit (a.toNat % 4 * 16 + b.toNat / 16) ::
      digit (b.toNat % 16 * 4 + c.toNat / 64) :: digit (c.toNat % 64) :: chars, ?_, ?_⟩
    · simp only [List.forall_mem_cons]
      exact ⟨digit_mem _ (by omega), digit_mem _ (by omega), digit_mem _ (by omega),
        digit_mem _ (by omega), hchars⟩
    · rw [encodeChars, heq]
      simp [Nat.add_assoc]

theorem stripPads_append {chars : List Char} (h : ∀ ch ∈ chars, ch ≠ '=') (n : ℕ) :
    stripPads (chars ++ List.replicate n '=') = chars := by
  have hpads : ∀ ch ∈ List.replicate n '=', decide (ch = '=') = true := by
    intro ch hch
    simp [(List.mem_replicate.mp hch).2]
  rw [stripPads, List.reverse_append, List.reverse_replicate, List.dropWhile_append_of_pos hpads]
  cases hreverse : chars.reverse with
  | nil =>
    rw [List.reverse_eq_nil_iff] at hreverse
    simp [hreverse]
  | cons ch rest =>
    have hmem : ch ∈ chars := List.mem_reverse.mp (hreverse ▸ List.mem_cons_self)
    rw [List.dropWhile_cons_of_neg (by simpa using h ch hmem), ← hreverse, List.reverse_reverse]

/-- The text that is left says what the data were. -/
theorem urlsafe_injective : Function.Injective urlsafe := by
  intro data data' h
  obtain ⟨chars, hchars, hencode⟩ := exists_unpadded data
  obtain ⟨chars', hchars', hencode'⟩ := exists_unpadded data'
  have hunpadded : ∀ {data : Bytes} {chars : List Char}, (∀ ch ∈ chars, ch ∈ alphabet) →
      encodeChars data = chars ++ List.replicate ((4 - chars.length % 4) % 4) '=' →
      (urlsafe data).toList = chars.map urlsafeChar := by
    intro data chars hchars hencode
    rw [urlsafe, String.toList_ofList, hencode, List.map_append, List.map_replicate]
    apply stripPads_append
    intro ch hch
    obtain ⟨ch, hmem, rfl⟩ := List.mem_map.mp hch
    exact urlsafeChar_ne_pad ch (hchars ch hmem)
  have hstandard : ∀ {chars : List Char}, (∀ ch ∈ chars, ch ∈ alphabet) →
      (chars.map urlsafeChar).map standardChar = chars := by
    intro chars hchars
    rw [List.map_map]
    calc
      chars.map (standardChar ∘ urlsafeChar) = chars.map id := by
        apply List.map_congr_left
        exact fun ch hch => standardChar_urlsafeChar ch (hchars ch hch)
      _ = chars := List.map_id _
  have hmap : chars.map urlsafeChar = chars'.map urlsafeChar := by
    rw [← hunpadded hchars hencode, ← hunpadded hchars' hencode', h]
  have heq : chars = chars' := by
    rw [← hstandard hchars, hmap, hstandard hchars']
  have hdecode : decodeChars .none (encodeChars data) = decodeChars .none (encodeChars data') := by
    rw [hencode, hencode', heq]
  rw [decodeChars_encodeChars, decodeChars_encodeChars] at hdecode
  exact Option.some.inj hdecode

end Lib.Base64
