import Mathlib.Data.List.Infix
import Mathlib.Data.String.Basic

/-! The string operations of the Python runtime that the model uses.  Case mapping is
exact on every character whose image is ASCII; the images that are not ASCII are left
alone, since every string they are compared with is. -/

universe u

namespace Lib.Text

/-- The characters of `str.isspace`, which `str.strip` removes. -/
def isSpace (c : Char) : Bool :=
  (0x09 ≤ c.toNat && c.toNat ≤ 0x0d) || (0x1c ≤ c.toNat && c.toNat ≤ 0x20) ||
  c.toNat == 0x85 || c.toNat == 0xa0 || c.toNat == 0x1680 ||
  (0x2000 ≤ c.toNat && c.toNat ≤ 0x200a) || c.toNat == 0x2028 || c.toNat == 0x2029 ||
  c.toNat == 0x202f || c.toNat == 0x205f || c.toNat == 0x3000

def upperChar (c : Char) : List Char :=
  match c.toNat with
  | 0xdf => ['S', 'S']
  | 0x131 => ['I']
  | 0x17f => ['S']
  | 0xfb00 => ['F', 'F']
  | 0xfb01 => ['F', 'I']
  | 0xfb02 => ['F', 'L']
  | 0xfb03 => ['F', 'F', 'I']
  | 0xfb04 => ['F', 'F', 'L']
  | 0xfb05 => ['S', 'T']
  | 0xfb06 => ['S', 'T']
  | _ => [c.toUpper]

def upper (s : String) : String := String.ofList (s.toList.flatMap upperChar)

def lowerChar (c : Char) : Char :=
  if c.toNat = 0x212a then 'k' else c.toLower

def lower (s : String) : String := String.ofList (s.toList.map lowerChar)

def strip (s : String) : String :=
  String.ofList ((s.toList.dropWhile isSpace).reverse.dropWhile isSpace).reverse

/-- `s.partition(sep)` for a one-character separator, without the separator itself. -/
def partition (sep : Char) (s : String) : String × String :=
  (String.ofList (s.toList.takeWhile (· != sep)),
    String.ofList ((s.toList.dropWhile (· != sep)).drop 1))

/-- A value used as a condition: `None` and the empty string count as absent. -/
def truthy (s : Option String) : Option String := s.filter (· ≠ "")

/-- `a or b or c` on optional strings, read as a condition. -/
def firstTruthy : List (Option String) → Option String
  | [] => none
  | s :: ss => (truthy s).or (firstTruthy ss)

@[simp] theorem truthy_none : truthy none = none := rfl

theorem truthy_eq_some {s : Option String} {t : String} :
    truthy s = some t ↔ s = some t ∧ t ≠ "" := by
  cases s with
  | none => simp
  | some s =>
    simp only [truthy, Option.filter_some, decide_eq_true_eq, Option.some.injEq]
    constructor
    · intro h
      split at h
      · rename_i hs
        obtain rfl := Option.some.inj h
        exact ⟨rfl, hs⟩
      · simp at h
    · rintro ⟨rfl, hs⟩
      simp [hs]

theorem firstTruthy_ne_empty {ss : List (Option String)} {t : String}
    (h : firstTruthy ss = some t) : t ≠ "" := by
  induction ss with
  | nil => simp [firstTruthy] at h
  | cons s ss ih =>
    simp only [firstTruthy, Option.or_eq_some_iff] at h
    rcases h with h | ⟨-, h⟩
    · exact (truthy_eq_some.mp h).2
    · exact ih h

/-- `part in s` -/
def contains (part s : String) : Bool := decide (part.toList <:+: s.toList)

/-- `s.endswith(part)` -/
def endsWith (part s : String) : Bool := decide (part.toList <:+ s.toList)

/-- `s.encode()`. -/
def encode (s : String) : List UInt8 := s.toByteArray.data.toList

theorem encode_injective : Function.Injective encode := by
  intro s t h
  exact String.toByteArray_inj.mp (ByteArray.ext (Array.toList_inj.mp h))

/-- Two texts joined by a separator are the same when their parts are, or when the separator that
joins the one stands inside a part of the other. -/
theorem join_eq_iff {α : Type u} {sep : α} {a b a' b' : List α} :
    a ++ sep :: b = a' ++ sep :: b' ↔
      (a = a' ∧ b = b') ∨ (∃ w, a' = a ++ sep :: w ∧ b = w ++ sep :: b') ∨
        ∃ w, a = a' ++ sep :: w ∧ b' = w ++ sep :: b := by
  simp only [List.append_eq_append_iff, List.cons_eq_append_iff, List.cons.injEq]
  constructor
  · rintro (⟨w, rfl, ⟨rfl, -, rfl⟩ | ⟨v, rfl, rfl⟩⟩ | ⟨w, rfl, ⟨rfl, -, rfl⟩ | ⟨v, rfl, rfl⟩⟩)
    · exact .inl ⟨by simp, rfl⟩
    · exact .inr (.inl ⟨v, rfl, rfl⟩)
    · exact .inl ⟨by simp, rfl⟩
    · exact .inr (.inr ⟨v, rfl, rfl⟩)
  · rintro (⟨rfl, rfl⟩ | ⟨w, rfl, rfl⟩ | ⟨w, rfl, rfl⟩)
    · exact .inl ⟨[], by simp⟩
    · exact .inl ⟨sep :: w, by simp⟩
    · exact .inr ⟨sep :: w, by simp⟩

/-- Where a separator can stand that is not in the front of a text. -/
theorem append_eq_append_cons_iff {α : Type u} {a b w y : List α} {c : α} (h : c ∉ a) :
    a ++ b = w ++ c :: y ↔ ∃ v, w = a ++ v ∧ b = v ++ c :: y := by
  rw [List.append_eq_append_iff]
  refine or_iff_left_of_imp ?_
  rintro ⟨v, rfl, hv⟩
  cases v with
  | nil => exact ⟨[], by simp, hv.symm⟩
  | cons c' v =>
    obtain ⟨rfl, -⟩ := List.cons.inj hv
    exact absurd (List.mem_append_right w List.mem_cons_self) h

/-- The same for strings and a separator of one character. -/
def Joined (sep a b a' b' : String) : Prop :=
  (a = a' ∧ b = b') ∨ (∃ w, a' = a ++ sep ++ w ∧ b = w ++ sep ++ b') ∨
    ∃ w, a = a' ++ sep ++ w ∧ b' = w ++ sep ++ b

theorem joined_iff {sep : String} {c : Char} (hsep : sep.toList = [c]) {a b a' b' : String} :
    a ++ sep ++ b = a' ++ sep ++ b' ↔ Joined sep a b a' b' := by
  have hjoin : ∀ x y : String, (x ++ sep ++ y).toList = x.toList ++ c :: y.toList := by
    intro x y
    simp [String.toList_append, hsep]
  have hback : ∀ {x y : String} {w : List Char}, x.toList = y.toList ++ c :: w →
      x = y ++ sep ++ String.ofList w := by
    intro x y w h
    exact String.toList_injective (by rw [h, hjoin, String.toList_ofList])
  have hfront : ∀ {x y : String} {w : List Char}, x.toList = w ++ c :: y.toList →
      x = String.ofList w ++ sep ++ y := by
    intro x y w h
    exact String.toList_injective (by rw [h, hjoin, String.toList_ofList])
  constructor
  · intro h
    have h := congrArg String.toList h
    rw [hjoin, hjoin] at h
    rcases join_eq_iff.mp h with ⟨ha, hb⟩ | ⟨w, ha, hb⟩ | ⟨w, ha, hb⟩
    · exact .inl ⟨String.toList_injective ha, String.toList_injective hb⟩
    · exact .inr (.inl ⟨String.ofList w, hback ha, hfront hb⟩)
    · exact .inr (.inr ⟨String.ofList w, hback ha, hfront hb⟩)
  · rintro (⟨rfl, rfl⟩ | ⟨w, rfl, rfl⟩ | ⟨w, rfl, rfl⟩)
    · rfl
    · simp only [String.append_assoc]
    · simp only [String.append_assoc]

/-- A separator that neither first part has parts them. -/
theorem join_inj {α : Type u} {sep : α} {a b a' b' : List α} (ha : sep ∉ a) (ha' : sep ∉ a')
    (h : a ++ sep :: b = a' ++ sep :: b') : a = a' ∧ b = b' := by
  rcases join_eq_iff.mp h with h | ⟨w, rfl, -⟩ | ⟨w, rfl, -⟩
  · exact h
  · simp at ha'
  · simp at ha

theorem isDigit_of_mem_repr {n : Nat} {c : Char} (h : c ∈ n.repr.toList) : c.isDigit = true := by
  rw [Nat.toList_repr] at h
  exact Nat.isDigit_of_mem_toDigits (by decide) (by decide) h

theorem repr_ne_nil (n : Nat) : n.repr.toList ≠ [] := by
  rw [Nat.toList_repr]
  exact Nat.toDigits_ne_nil

/-- A number ends at a minus sign that follows it. -/
theorem int_join_inj {n n' : Int} {rest rest' : List Char}
    (h : n.repr.toList ++ '-' :: rest = n'.repr.toList ++ '-' :: rest') :
    n = n' ∧ rest = rest' := by
  have hminus : ∀ n : Nat, '-' ∉ n.repr.toList := fun n hmem => by
    cases isDigit_of_mem_repr hmem
  -- A negative number begins with the sign, and another one does not.
  have hsign : ∀ (n : Nat) (tail tail' : List Char), n.repr.toList ++ '-' :: tail ≠ '-' :: tail' :=
    fun n tail tail' h => repr_ne_nil n (join_inj (hminus n) (List.not_mem_nil) h).1
  have hnat : ∀ n n' : Nat, n.repr.toList = n'.repr.toList → n = n' := fun n n' h => by
    rw [Nat.toList_repr, Nat.toList_repr] at h
    simpa using congrArg (Nat.ofDigitChars 10 · 0) h
  rw [Int.repr_eq_if, Int.repr_eq_if] at h
  split_ifs at h with hn hn' hn'
  · obtain ⟨hdigits, hrest⟩ := join_inj (hminus _) (hminus _) h
    exact ⟨by have := hnat _ _ hdigits; omega, hrest⟩
  · exact absurd (by simpa using h) (hsign n.toNat rest _)
  · exact absurd (by simpa using h.symm) (hsign n'.toNat rest' _)
  · have htail :
        (-n).toNat.repr.toList ++ '-' :: rest = (-n').toNat.repr.toList ++ '-' :: rest' := by
      simpa using h
    obtain ⟨hdigits, hrest⟩ := join_inj (hminus _) (hminus _) htail
    exact ⟨by have := hnat _ _ hdigits; omega, hrest⟩

end Lib.Text
