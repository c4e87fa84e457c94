import Marty.Lib.JsonLexeme

/-! `repr` of dictionaries writes their entries in the order in which they stand: what it writes of
values that differ in the order of keys only is equal only if the values are. -/

universe u

namespace Lib

/-- The values are equal but for the order of keys, at every level. -/
inductive Json.Same : Json → Json → Prop
  | refl (value : Json) : Same value value
  | arr {values values' : List Json} (hlength : values.length = values'.length)
      (hvalues : ∀ pair ∈ values.zip values', Same pair.1 pair.2) :
      Same (.arr values) (.arr values')
  | obj {entries entries' : List (String × Json)}
      (hkeys : (entries.map (·.1)).Perm (entries'.map (·.1)))
      (hvalues : ∀ key value value', (key, value) ∈ entries → (key, value') ∈ entries' →
        Same value value') : Same (.obj entries) (.obj entries')

namespace Repr

open JsonLexeme (readHex readHex_hex)

/-- Texts of the two values are never followed up to the same text, unless the values are equal. -/
def Cancels {α : Type u} (write : α → List Char) (a a' : α) : Prop :=
  ∀ text text', write a ++ text = write a' ++ text' → a = a'

section

variable {α : Type u} {write : α → List Char}

theorem Cancels.refl (a : α) : Cancels write a a := fun _ _ _ => rfl

/-- Lists of the same length are written with separators. -/
theorem cancels_intercalate (sep : List Char) {values values' : List α}
    (hlength : values.length = values'.length)
    (hvalues : ∀ pair ∈ values.zip values', Cancels write pair.1 pair.2) :
    Cancels (fun values => List.intercalate sep (values.map write)) values values' := by
  induction values generalizing values' with
  | nil =>
    intro text text' _
    exact (List.eq_nil_of_length_eq_zero hlength.symm).symm
  | cons value values ih =>
    cases values' with
    | nil => cases hlength
    | cons value' values' =>
      intro text text' htext
      obtain ⟨hvalue, hrest⟩ := List.forall_mem_cons.mp hvalues
      have hlength' : values.length = values'.length := Nat.succ.inj hlength
      cases values with
      | nil =>
        obtain rfl := List.eq_nil_of_length_eq_zero hlength'.symm
        simp only [List.map_cons, List.map_nil, List.intercalate_singleton] at htext
        obtain rfl : value = value' := hvalue _ _ htext
        rfl
      | cons next values =>
        cases values' with
        | nil => cases hlength'
        | cons next' values' =>
          simp only [List.map_cons, List.intercalate_cons_cons, List.append_assoc] at htext
          obtain rfl : value = value' := hvalue _ _ htext
          have hcancel := List.append_cancel_left (List.append_cancel_left htext)
          rw [ih hlength' hrest _ _ hcancel]

end

/-! Strings: what is escaped is read back, a character at a time. -/

/-- The character after the escape of `width` hexadecimal digits. -/
def readDigits (width : Nat) (text : List Char) : Option (Char × List Char) :=
  (readHex (text.take width)).map fun code => (Char.ofNat code, text.drop width)

def readChar : List Char → Option (Char × List Char)
  | [] => none
  | c :: text =>
    if c = backslash then
      match text with
      | [] => none
      | 'n' :: text => some ('\n', text)
      | 'r' :: text => some ('\r', text)
      | 't' :: text => some ('\t', text)
      | 'x' :: text => readDigits 2 text
      | 'u' :: text => readDigits 4 text
      | 'U' :: text => readDigits 8 text
      | c :: text => some (c, text)
    else some (c, text)

def quotes : List Char := [apostrophe, quotationMark]

variable {fmt : Format} {quote c : Char}

@[simp] theorem length_hex (width n : Nat) : (hex width n).length = width := by
  induction width generalizing n with
  | zero => rfl
  | succ width ih => simp [hex, ih]

theorem readDigits_hex (width : Nat) (h : c.toNat < 16 ^ width) (text : List Char) :
    readDigits width (hex width c.toNat ++ text) = some (c, text) := by
  rw [readDigits, List.take_left' (length_hex _ _), List.drop_left' (length_hex _ _), readHex_hex h]
  simp

theorem readChar_plain (hc : c ≠ backslash) (text : List Char) :
    readChar (c :: text) = some (c, text) := by
  simp [readChar, hc]

theorem readChar_escapeChar (hquote : quote ∈ quotes) (c : Char) (text : List Char) :
    readChar (escapeChar fmt quote c ++ text) = some (c, text) := by
  unfold escapeChar
  split_ifs with hspecial hn hr ht hprintable hx hu
  · have hc : c ∈ [apostrophe, quotationMark, backslash] := by
      cases hspecial with
      | inl h =>
        subst h
        exact List.mem_append_left [backslash] hquote
      | inr h => simp [h]
    simp only [List.mem_cons, List.not_mem_nil, or_false] at hc
    obtain rfl | rfl | rfl := hc <;> rfl
  · subst hn
    rfl
  · subst hr
    rfl
  · subst ht
    rfl
  · have hbackslash : c ≠ backslash := fun h => hspecial (Or.inr h)
    exact readChar_plain hbackslash text
  · exact readDigits_hex 2 hx text
  · exact readDigits_hex 4 hu text
  · apply readDigits_hex 8
    have hvalid := JsonLexeme.toNat_valid c
    omega

/-- No character is escaped to a text that begins with the quote. -/
theorem ne_escapeChar (hquote : quote ∈ quotes) (c : Char) (text text' : List Char) :
    quote :: text ≠ escapeChar fmt quote c ++ text' := by
  intro h
  have hbackslash : quote ≠ backslash := by
    rintro rfl
    revert hquote
    decide
  have hread : readChar (escapeChar fmt quote c ++ text') = some (c, text') :=
    readChar_escapeChar hquote c text'
  rw [← h, readChar_plain hbackslash] at hread
  cases hread
  rw [escapeChar, if_pos (Or.inl rfl)] at h
  exact hbackslash (List.cons.inj h).1

theorem escaped_append_inj (hquote : quote ∈ quotes) {s s' text text' : List Char}
    (h : s.flatMap (escapeChar fmt quote) ++ quote :: text =
      s'.flatMap (escapeChar fmt quote) ++ quote :: text') : s = s' := by
  induction s generalizing s' with
  | nil =>
    cases s' with
    | nil => rfl
    | cons c' s' =>
      rw [List.flatMap_cons, List.append_assoc] at h
      exact absurd h (ne_escapeChar hquote _ _ _)
  | cons c s ih =>
    cases s' with
    | nil =>
      rw [List.flatMap_cons, List.append_assoc] at h
      exact absurd h.symm (ne_escapeChar hquote _ _ _)
    | cons c' s' =>
      simp only [List.flatMap_cons, List.append_assoc] at h
      have hread := congrArg readChar h
      rw [readChar_escapeChar hquote, readChar_escapeChar hquote] at hread
      obtain rfl : c = c' := (Prod.mk.inj (Option.some.inj hread)).1
      rw [ih (List.append_cancel_left h)]

theorem cancels_reprStr (s s' : String) : Cancels (fun s => (reprStr fmt s).toList) s s' := by
  intro text text' h
  simp only [reprStr, String.toList_ofList, List.cons_append, List.append_assoc, List.nil_append,
    List.cons.injEq] at h
  obtain ⟨hquote, h⟩ := h
  rw [← hquote] at h
  apply String.toList_inj.mp
  refine escaped_append_inj ?_ h
  split <;> simp [quotes]

/-! Values. -/

theorem reprs_eq_map (values : List Json) : reprs fmt values = values.map (repr fmt) := by
  induction values with
  | nil => rfl
  | cons value values ih => rw [reprs, ih, List.map_cons]

def reprEntry (fmt : Format) (entry : String × Json) : String :=
  reprStr fmt entry.1 ++ ": " ++ repr fmt entry.2

theorem reprEntries_eq_map (entries : List (String × Json)) :
    reprEntries fmt entries = entries.map (reprEntry fmt) := by
  induction entries with
  | nil => rfl
  | cons entry entries ih => rw [reprEntries, ih, List.map_cons, reprEntry]

/-- The keys are told apart first. -/
theorem cancels_reprEntry {entry entry' : String × Json}
    (hvalue : entry.1 = entry'.1 →
      Cancels (fun value => (repr fmt value).toList) entry.2 entry'.2) :
    Cancels (fun entry => (reprEntry fmt entry).toList) entry entry' := by
  intro text text' h
  simp only [reprEntry, String.toList_append, List.append_assoc] at h
  have hkey : entry.1 = entry'.1 := cancels_reprStr _ _ _ _ h
  rw [hkey] at h
  exact Prod.ext hkey (hvalue hkey _ _ (List.append_cancel_left (List.append_cancel_left h)))

/-- Values that are equal but for the order of keys are not written to the same text, whatever
follows, unless they are equal. -/
theorem cancels_of_same {value value' : Json} (h : Json.Same value value') :
    Cancels (fun value => (repr fmt value).toList) value value' := by
  induction h with
  | refl value => exact Cancels.refl value
  | arr hlength hvalues ih =>
    intro text text' h
    simp only [repr, reprs_eq_map, String.toList_append, String.toList_intercalate, List.map_map,
      List.append_assoc] at h
    exact congrArg Json.arr
      (cancels_intercalate _ hlength ih _ _ (List.append_cancel_left h))
  | @obj entries entries' hkeys hvalues ih =>
    intro text text' h
    have hlength : entries.length = entries'.length := by
      simpa using hkeys.length_eq
    have hentries : ∀ pair ∈ entries.zip entries',
        Cancels (fun entry => (reprEntry fmt entry).toList) pair.1 pair.2 := by
      rintro ⟨⟨key, value⟩, key', value'⟩ hpair
      obtain ⟨hentry, hentry'⟩ := List.of_mem_zip hpair
      apply cancels_reprEntry
      intro hkey
      obtain rfl : key = key' := hkey
      exact ih key value value' hentry hentry'
    simp only [repr, reprEntries_eq_map, String.toList_append, String.toList_intercalate,
      List.map_map, List.append_assoc] at h
    exact congrArg Json.obj
      (cancels_intercalate _ hlength hentries _ _ (List.append_cancel_left h))

theorem strItems_inj {items items' : List (String × Json)} (hlength : items.length = items'.length)
    (hsame : ∀ pair ∈ items.zip items', Json.Same pair.1.2 pair.2.2)
    (h : strItems fmt items = strItems fmt items') : items = items' := by
  have hitems : ∀ pair ∈ items.zip items', Cancels (fun item : String × Json =>
      ("(" ++ reprStr fmt item.1 ++ ", " ++ repr fmt item.2 ++ ")").toList) pair.1 pair.2 := by
    rintro ⟨⟨key, value⟩, key', value'⟩ hpair text text' htext
    simp only [String.toList_append, List.append_assoc] at htext
    replace htext := List.append_cancel_left htext
    obtain rfl : key = key' := cancels_reprStr _ _ _ _ htext
    obtain rfl : value = value' := cancels_of_same (hsame _ hpair) _ _
      (List.append_cancel_left (List.append_cancel_left htext))
    rfl
  have htext := congrArg String.toList h
  simp only [strItems, String.toList_append, String.toList_intercalate, List.map_map,
    List.append_assoc] at htext
  exact cancels_intercalate _ hlength hitems _ _ (List.append_cancel_left htext)

end Repr

end Lib
