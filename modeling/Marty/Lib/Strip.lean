import Mathlib.Data.List.DropRight
import Marty.Lib.Text

/-! `str.strip`, and `str.split` on texts that are joined with a space after each separator. -/

namespace Lib.Text

variable {s : String} {c c' : Char}

/-- A text is its own `strip()` when it neither begins nor ends with a space. -/
theorem strip_eq {text : List Char} (hc : isSpace c = false) (hc' : isSpace c' = false) :
    strip (String.ofList (c :: (text ++ [c']))) = String.ofList (c :: (text ++ [c'])) := by
  have hreverse : (c :: (text ++ [c'])).reverse = c' :: (text.reverse ++ [c]) := by simp
  rw [strip, String.toList_ofList, List.dropWhile_cons_of_neg (by simp [hc]), hreverse,
    List.dropWhile_cons_of_neg (by simp [hc']), ← hreverse, List.reverse_reverse]

theorem strip_of_forall (h : ∀ c ∈ s.toList, isSpace c = false) : strip s = s := by
  have hdrop : ∀ text : List Char, (∀ c ∈ text, isSpace c = false) →
      text.dropWhile isSpace = text := by
    intro text htext
    cases text with
    | nil => rfl
    | cons c text => simp [htext c List.mem_cons_self]
  rw [strip, hdrop _ h, hdrop _ (by simpa using h), List.reverse_reverse, String.ofList_toList]

theorem strip_eq_rdropWhile (s : String) :
    strip s = String.ofList ((s.toList.dropWhile isSpace).rdropWhile isSpace) := rfl

/-- There is nothing left to strip. -/
theorem strip_strip (s : String) : strip (strip s) = strip s := by
  have hstart : ((s.toList.dropWhile isSpace).rdropWhile isSpace).dropWhile isSpace =
      (s.toList.dropWhile isSpace).rdropWhile isSpace := by
    obtain ⟨after, happend⟩ := List.rdropWhile_prefix isSpace (s.toList.dropWhile isSpace)
    cases htext : (s.toList.dropWhile isSpace).rdropWhile isSpace with
    | nil => rfl
    | cons c text =>
      have hhead := List.head?_dropWhile_not isSpace s.toList
      rw [← happend, htext] at hhead
      exact List.dropWhile_cons_of_neg (by simpa using hhead)
  rw [strip_eq_rdropWhile, strip_eq_rdropWhile, String.toList_ofList, hstart,
    List.rdropWhile_idempotent]

theorem toLower_cases (c : Char) :
    c.toLower = c ∨ 97 ≤ c.toLower.toNat ∧ c.toLower.toNat ≤ 122 := by
  unfold Char.toLower
  split
  case isTrue h =>
    have hA : 'A'.val.toNat = 65 := rfl
    have hZ : 'Z'.val.toNat = 90 := rfl
    have hshift : ('a'.val - 'A'.val).toNat = 32 := rfl
    simp only [Char.toNat, UInt32.le_iff_toNat_le, ge_iff_le] at h ⊢
    rw [UInt32.toNat_add, hshift]
    omega
  case isFalse => exact .inl rfl

theorem toLower_of_le {c : Char} (h : 97 ≤ c.toNat) : c.toLower = c := by
  unfold Char.toLower
  rw [dif_neg]
  intro hupper
  have hle := UInt32.le_iff_toNat_le.mp hupper.2
  have hZ : 'Z'.val.toNat = 90 := rfl
  have hc : c.val.toNat = c.toNat := rfl
  omega

theorem lowerChar_lowerChar (c : Char) : lowerChar (lowerChar c) = lowerChar c := by
  by_cases hkelvin : c.toNat = 0x212a
  · have hk : lowerChar c = 'k' := if_pos hkelvin
    rw [hk]
    rfl
  · have hlower : lowerChar c = c.toLower := if_neg hkelvin
    rw [hlower]
    obtain hsame | ⟨hle, hge⟩ := toLower_cases c
    · rw [hsame, hlower, hsame]
    · rw [lowerChar, if_neg (by omega), toLower_of_le hle]

theorem toUpper_cases (c : Char) : c.toUpper = c ∨ c.toUpper.toNat ≤ 90 := by
  unfold Char.toUpper
  split
  case isTrue h =>
    have ha : 'a'.val.toNat = 97 := rfl
    have hz : 'z'.val.toNat = 122 := rfl
    have hshift : ('A'.val - 'a'.val).toNat = 4294967264 := rfl
    simp only [Char.toNat, UInt32.le_iff_toNat_le] at h ⊢
    rw [UInt32.toNat_add, hshift]
    omega
  case isFalse => exact .inl rfl

theorem upperChar_of_le {c : Char} (h : c.toNat ≤ 90) : upperChar c = [c] := by
  have hupper : c.toUpper = c := by
    unfold Char.toUpper
    rw [dif_neg]
    intro hlower
    have hle := UInt32.le_iff_toNat_le.mp hlower.1
    have ha : 'a'.val.toNat = 97 := rfl
    have hc : c.val.toNat = c.toNat := rfl
    omega
  rw [upperChar]
  split
  case h_11 => rw [hupper]
  all_goals omega

theorem upperChar_cases (c : Char) :
    upperChar c = [c.toUpper] ∨ ∀ d ∈ upperChar c, d.toNat ≤ 90 := by
  rw [upperChar]
  split
  case h_11 => exact .inl rfl
  all_goals exact .inr (by simp)

theorem upperChar_of_mem {c d : Char} (h : d ∈ upperChar c) : upperChar d = [d] := by
  obtain hsingle | hle := upperChar_cases c
  · rw [hsingle, List.mem_singleton] at h
    subst h
    obtain hsame | hle := toUpper_cases c
    · rwa [hsame] at hsingle ⊢
    · exact upperChar_of_le hle
  · exact upperChar_of_le (hle d h)

theorem upper_upper (s : String) : upper (upper s) = upper s := by
  have hmap : ∀ text : List Char, (∀ d ∈ text, upperChar d = [d]) →
      text.flatMap upperChar = text := by
    intro text htext
    induction text with
    | nil => rfl
    | cons d text ih =>
      rw [List.flatMap_cons, htext d List.mem_cons_self, ih fun d hd =>
        htext d (List.mem_cons_of_mem _ hd)]
      rfl
  rw [upper, upper, String.toList_ofList, hmap]
  intro d hd
  obtain ⟨c, -, hc⟩ := List.mem_flatMap.mp hd
  exact upperChar_of_mem hc

/-- A part of a text in lower case. -/
theorem lower_eq {s t : String} (h : ∀ c ∈ t.toList, c ∈ (lower s).toList) : lower t = t := by
  have hmap : t.toList.map lowerChar = t.toList := by
    calc
      t.toList.map lowerChar = t.toList.map id := by
        apply List.map_congr_left
        intro c hc
        have hmem := h c hc
        rw [lower, String.toList_ofList] at hmem
        obtain ⟨c', -, rfl⟩ := List.mem_map.mp hmem
        exact lowerChar_lowerChar c'
      _ = t.toList := List.map_id _
  rw [lower, hmap, String.ofList_toList]

theorem mem_of_mem_strip (h : c ∈ (strip s).toList) : c ∈ s.toList := by
  rw [strip, String.toList_ofList, List.mem_reverse] at h
  have hmem := (List.dropWhile_sublist _).subset h
  rw [List.mem_reverse] at hmem
  exact (List.dropWhile_sublist _).subset hmem

theorem strip_space (hc : isSpace c = true) (text : List Char) :
    strip (String.ofList (c :: text)) = strip (String.ofList text) := by
  simp only [strip, String.toList_ofList, List.dropWhile_cons_of_pos hc]

/-- A text that is its own `strip()`, if it is not empty, ends with no space. -/
theorem exists_last (h : strip s = s) (hne : s ≠ "") :
    ∃ text c, s.toList = text ++ [c] ∧ isSpace c = false := by
  have hlist : ((s.toList.dropWhile isSpace).reverse.dropWhile isSpace).reverse = s.toList := by
    have htext := congrArg String.toList h
    rwa [strip, String.toList_ofList] at htext
  have hnot := List.head?_dropWhile_not isSpace (s.toList.dropWhile isSpace).reverse
  cases hdrop : (s.toList.dropWhile isSpace).reverse.dropWhile isSpace with
  | nil =>
    rw [hdrop] at hlist
    exact absurd (String.toList_eq_nil_iff.mp hlist.symm) hne
  | cons c text =>
    rw [hdrop] at hlist hnot
    exact ⟨text.reverse, c, by rw [← hlist, List.reverse_cons], hnot⟩

/-- A text that begins with no space and ends like one that is its own `strip()`. -/
theorem strip_append (hc : isSpace c = false) (text : List Char) (h : strip s = s) (hne : s ≠ "") :
    strip (String.ofList (c :: (text ++ s.toList))) = String.ofList (c :: (text ++ s.toList)) := by
  obtain ⟨before, last, hlast, hspace⟩ := exists_last h hne
  rw [hlast, ← List.append_assoc]
  exact strip_eq hc hspace

theorem partition_append {sep : Char} {before : List Char} (h : sep ∉ before) (after : List Char) :
    partition sep (String.ofList (before ++ sep :: after)) =
      (String.ofList before, String.ofList after) := by
  have hbefore : ∀ c ∈ before, (c != sep) = true := by
    intro c hc
    rw [bne_iff_ne]
    rintro rfl
    exact h hc
  simp [partition, List.takeWhile_append_of_pos hbefore, List.dropWhile_append_of_pos hbefore]

theorem notMem_of_mem_splitOn {sep : Char} {text part : List Char} (h : part ∈ text.splitOn sep) :
    sep ∉ part := by
  induction text generalizing part with
  | nil => simp_all
  | cons c text ih =>
    rw [List.splitOn_cons_eq_if_modifyHead] at h
    split at h
    case isTrue =>
      obtain rfl | hmem := List.mem_cons.mp h
      · exact List.not_mem_nil
      · exact ih hmem
    case isFalse hc =>
      cases hsplit : text.splitOn sep with
      | nil => simp [hsplit] at h
      | cons first rest =>
        rw [hsplit, List.modifyHead_cons, List.mem_cons] at h
        obtain rfl | hmem := h
        · have hfirst := ih (hsplit ▸ List.mem_cons_self)
          have hne : sep ≠ c := fun heq => hc (by simp [heq])
          simp [hne, hfirst]
        · exact ih (hsplit ▸ List.mem_cons_of_mem _ hmem)

theorem intercalate_space (sep : Char) (part : List Char) (parts : List (List Char)) :
    [sep, ' '].intercalate (part :: parts) =
      [sep].intercalate (part :: parts.map fun part => ' ' :: part) := by
  induction parts generalizing part with
  | nil => simp
  | cons next parts ih =>
    have hspace := ih next
    rw [List.intercalate_cons_cons, hspace, List.map_cons, List.intercalate_cons_cons,
      List.intercalate_cons_cons_left]
    simp

/-- `sep + " "` between the parts makes a space before each but the first. -/
theorem splitOn_intercalate_space {sep : Char} {part : List Char} {parts : List (List Char)}
    (hsep : sep ≠ ' ') (h : ∀ p ∈ part :: parts, sep ∉ p) :
    ([sep, ' '].intercalate (part :: parts)).splitOn sep =
      part :: parts.map fun part => ' ' :: part := by
  rw [intercalate_space]
  apply List.splitOn_intercalate
  · intro p hp
    rw [List.mem_cons, List.mem_map] at hp
    obtain rfl | ⟨p, hp, rfl⟩ := hp
    · exact h _ List.mem_cons_self
    · rw [List.mem_cons, not_or]
      exact ⟨hsep, h _ (List.mem_cons_of_mem _ hp)⟩
  · exact List.cons_ne_nil _ _

end Lib.Text
