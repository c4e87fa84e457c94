import Marty.Lib.JsonLexeme

/-! JSON texts: what `json.dumps` writes and `json.loads` reads, over any type of floats.  The
limits of the interpreter on nesting and on the digits of an integer are left out. -/

namespace Lib.JsonText

open Lib.Repr (quotationMark)
open Lib.JsonLexeme

/-- A dictionary is the list of its entries in insertion order. -/
inductive Value (F : Type) : Type
  | null : Value F
  | bool : Bool → Value F
  | int : Int → Value F
  | float : F → Value F
  | str : String → Value F
  | arr : List (Value F) → Value F
  | obj : List (String × Value F) → Value F

/-- `float` and its texts: what is written is a constant or a literal, and reads as what it was
written for. -/
structure FloatText (F : Type) where
  isZero : F → Bool
  nan : F
  infinity : F
  negInfinity : F
  parse : List Char → F
  repr : F → List Char
  repr_spec : ∀ x, (repr x, x) ∈ [("NaN".toList, nan), ("Infinity".toList, infinity),
      ("-Infinity".toList, negInfinity)] ∨
    scanNumber (repr x) = some (⟨repr x, true⟩, []) ∧ parse (repr x) = x

variable {F : Type} (floats : FloatText F)

namespace Value

/-- `data.get(key)` where `data` is a dictionary. -/
def get? (key : String) : Value F → Option (Value F)
  | .obj entries => entries.lookup key
  | _ => none

/-- The value used as a condition. -/
def truthy : Value F → Bool
  | .null => false
  | .bool b => b
  | .int n => n ≠ 0
  | .float x => !floats.isZero x
  | .str s => s ≠ ""
  | .arr values => !values.isEmpty
  | .obj entries => !entries.isEmpty

mutual

/-- The keys of a dictionary are distinct, at every depth. -/
def WellFormed : Value F → Prop
  | .arr values => WellFormeds values
  | .obj entries => (entries.map (·.1)).Nodup ∧ WellFormedEntries entries
  | _ => True

def WellFormeds : List (Value F) → Prop
  | [] => True
  | value :: values => value.WellFormed ∧ WellFormeds values

def WellFormedEntries : List (String × Value F) → Prop
  | [] => True
  | (_, value) :: entries => value.WellFormed ∧ WellFormedEntries entries

end

end Value

/-! Writing. -/

def separator : List Char := [',', ' ']

mutual

def encode : Value F → List Char
  | .null => "null".toList
  | .bool b => (if b then "true" else "false").toList
  | .int n => intText n
  | .float x => floats.repr x
  | .str s => quote s
  | .arr values => '[' :: (separator.intercalate (encodeItems values) ++ [']'])
  | .obj entries => openBrace :: (separator.intercalate (encodeEntries entries) ++ [closeBrace])

def encodeItems : List (Value F) → List (List Char)
  | [] => []
  | value :: values => encode value :: encodeItems values

def encodeEntries : List (String × Value F) → List (List Char)
  | [] => []
  | (key, value) :: entries => (quote key ++ [':', ' '] ++ encode value) :: encodeEntries entries

end

/-- `json.dumps(value)` -/
def dumps (value : Value F) : String := String.ofList (encode floats value)

/-! Reading. -/

def byteOrderMark : Char := Char.ofNat 0xfeff

def isSpace (c : Char) : Bool := decide (c ∈ [' ', '\t', '\n', '\r'])

def skipSpace (text : List Char) : List Char := text.dropWhile isSpace

def words : List (String × Value F) := [
  ("null", .null), ("true", .bool true), ("false", .bool false), ("NaN", .float floats.nan),
  ("Infinity", .float floats.infinity), ("-Infinity", .float floats.negInfinity)]

/-- The text after the word, when it begins with it. -/
def expectWord : List Char → List Char → Option (List Char)
  | [], text => some text
  | c :: word, text => (expect c text).bind (expectWord word)

def scanWord (text : List Char) : Option (Value F × List Char) :=
  (words floats).findSome? fun (word, value) =>
    (expectWord word.toList text).map fun rest => (value, rest)

def number (literal : Literal) : Value F :=
  if literal.isFloat then .float (floats.parse literal.text) else .int (readInt literal.text)

/-- A constant or a number. -/
def scanAtom (text : List Char) : Option (Value F × List Char) :=
  (scanWord floats text).or <|
    (scanNumber text).map fun (literal, rest) => (number floats literal, rest)

mutual

/-- The recursion is bounded by its first argument; `loads` gives it enough. -/
def scanOnce : Nat → List Char → Option (Value F × List Char)
  | 0, _ => none
  | _ + 1, [] => none
  | fuel + 1, c :: text =>
    if c = quotationMark then (scanString text).map fun (s, rest) => (.str s, rest)
    else if c = openBrace then
      match expect closeBrace (skipSpace text) with
      | some rest => some (.obj [], rest)
      | none => (scanEntries fuel (skipSpace text)).map fun (entries, rest) =>
          (.obj (Dict.updated [] entries), rest)
    else if c = '[' then
      match expect ']' (skipSpace text) with
      | some rest => some (.arr [], rest)
      | none => (scanItems fuel (skipSpace text)).map fun (values, rest) => (.arr values, rest)
    else scanAtom floats (c :: text)

def scanItems : Nat → List Char → Option (List (Value F) × List Char)
  | 0, _ => none
  | fuel + 1, text => do
    let (value, text) ← scanOnce fuel text
    match expect ']' (skipSpace text) with
    | some rest => some ([value], rest)
    | none => do
      let text ← expect ',' (skipSpace text)
      let (values, rest) ← scanItems fuel (skipSpace text)
      some (value :: values, rest)

def scanEntries : Nat → List Char → Option (List (String × Value F) × List Char)
  | 0, _ => none
  | fuel + 1, text => do
    let text ← expect quotationMark text
    let (key, text) ← scanString text
    let text ← expect ':' (skipSpace text)
    let (value, text) ← scanOnce fuel (skipSpace text)
    match expect closeBrace (skipSpace text) with
    | some rest => some ([(key, value)], rest)
    | none => do
      let text ← expect ',' (skipSpace text)
      let (entries, rest) ← scanEntries fuel (skipSpace text)
      some ((key, value) :: entries, rest)

end

/-- A text is refused when it begins with a byte order mark or goes on after the value. -/
def loads (s : String) : Option (Value F) :=
  if s.toList.head? = some byteOrderMark then none
  else do
    let text := skipSpace s.toList
    let (value, rest) ← scanOnce floats (2 * text.length + 1) text
    if skipSpace rest = [] then some value else none

/-! Writing with other separators. -/

/-- The spaces that `separators` has after a comma and after a colon. -/
structure Spacing where
  comma : List Char
  colon : List Char
  comma_spec : ∀ c ∈ comma, isSpace c = true
  colon_spec : ∀ c ∈ colon, isSpace c = true

def Spacing.standard : Spacing where
  comma := [' ']
  colon := [' ']
  comma_spec := List.forall_mem_singleton.mpr rfl
  colon_spec := List.forall_mem_singleton.mpr rfl

/-- `separators=(",", ":")` -/
def Spacing.compact : Spacing where
  comma := []
  colon := []
  comma_spec := List.forall_mem_nil _
  colon_spec := List.forall_mem_nil _

section spacing

variable (spacing : Spacing)

mutual

def write : Value F → List Char
  | .null => "null".toList
  | .bool b => (if b then "true" else "false").toList
  | .int n => intText n
  | .float x => floats.repr x
  | .str s => quote s
  | .arr values => '[' :: ((',' :: spacing.comma).intercalate (writeItems values) ++ [']'])
  | .obj entries =>
    openBrace :: ((',' :: spacing.comma).intercalate (writeEntries entries) ++ [closeBrace])

def writeItems : List (Value F) → List (List Char)
  | [] => []
  | value :: values => write value :: writeItems values

def writeEntries : List (String × Value F) → List (List Char)
  | [] => []
  | (key, value) :: entries =>
    (quote key ++ (':' :: (spacing.colon ++ write value))) :: writeEntries entries

end

/-- `json.dumps(value, separators=...)` -/
def dumpsWith (value : Value F) : String := String.ofList (write floats spacing value)

end spacing

/-! What the texts are read as, without the bound. -/

mutual

/-- A value at the front of the text, and what is left. -/
inductive Reads : List Char → Value F → List Char → Prop
  | str {text rest : List Char} {s : String} :
      scanString text = some (s, rest) → Reads (quotationMark :: text) (.str s) rest
  | emptyObj {text rest : List Char} :
      skipSpace text = closeBrace :: rest → Reads (openBrace :: text) (.obj []) rest
  | obj {text rest : List Char} {entries : List (String × Value F)} :
      ReadsEntries (skipSpace text) entries rest →
      Reads (openBrace :: text) (.obj (Dict.updated [] entries)) rest
  | emptyArr {text rest : List Char} :
      skipSpace text = ']' :: rest → Reads ('[' :: text) (.arr []) rest
  | arr {text rest : List Char} {values : List (Value F)} :
      ReadsItems (skipSpace text) values rest → Reads ('[' :: text) (.arr values) rest
  | atom {text rest : List Char} {value : Value F} :
      scanAtom floats text = some (value, rest) → Reads text value rest

inductive ReadsItems : List Char → List (Value F) → List Char → Prop
  | last {text after rest : List Char} {value : Value F} :
      Reads text value after → skipSpace after = ']' :: rest → ReadsItems text [value] rest
  | more {text after next rest : List Char} {value : Value F} {values : List (Value F)} :
      Reads text value after → skipSpace after = ',' :: next →
      ReadsItems (skipSpace next) values rest → ReadsItems text (value :: values) rest

inductive ReadsEntries : List Char → List (String × Value F) → List Char → Prop
  | last {text colon value after rest : List Char} {key : String} {v : Value F} :
      scanString text = some (key, colon) → skipSpace colon = ':' :: value →
      Reads (skipSpace value) v after → skipSpace after = closeBrace :: rest →
      ReadsEntries (quotationMark :: text) [(key, v)] rest
  | more {text colon value after next rest : List Char} {key : String} {v : Value F}
      {entries : List (String × Value F)} :
      scanString text = some (key, colon) → skipSpace colon = ':' :: value →
      Reads (skipSpace value) v after → skipSpace after = ',' :: next →
      ReadsEntries (skipSpace next) entries rest →
      ReadsEntries (quotationMark :: text) ((key, v) :: entries) rest

end

variable {floats}

/-- What has been scanned is read. -/
theorem reads_of_scan (n : Nat) :
    (∀ {text value rest}, scanOnce floats n text = some (value, rest) →
      Reads floats text value rest) ∧
    (∀ {text values rest}, scanItems floats n text = some (values, rest) →
      ReadsItems floats text values rest) ∧
    (∀ {text entries rest}, scanEntries floats n text = some (entries, rest) →
      ReadsEntries floats text entries rest) := by
  induction n with
  | zero => refine ⟨?_, ?_, ?_⟩ <;> intro _ _ _ h <;> simp [scanOnce, scanItems, scanEntries] at h
  | succ n ih =>
    obtain ⟨ihonce, ihitems, ihentries⟩ := ih
    refine ⟨?_, ?_, ?_⟩
    · intro text value rest h
      cases text with
      | nil => simp [scanOnce] at h
      | cons c text =>
        unfold scanOnce at h
        split_ifs at h with hquote hbrace hbracket
        · obtain ⟨⟨s, rest⟩, hscan, heq⟩ := Option.map_eq_some_iff.mp h
          cases heq
          exact hquote ▸ .str hscan
        · split at h
          · rename_i hclose
            cases h
            exact hbrace ▸ .emptyObj (expect_eq_some.mp hclose)
          · obtain ⟨⟨entries, rest⟩, hscan, heq⟩ := Option.map_eq_some_iff.mp h
            cases heq
            exact hbrace ▸ .obj (ihentries hscan)
        · split at h
          · rename_i hclose
            cases h
            exact hbracket ▸ .emptyArr (expect_eq_some.mp hclose)
          · obtain ⟨⟨values, rest⟩, hscan, heq⟩ := Option.map_eq_some_iff.mp h
            cases heq
            exact hbracket ▸ .arr (ihitems hscan)
        · exact .atom h
    · intro text values rest h
      simp only [scanItems, Option.bind_eq_bind, Option.bind_eq_some_iff] at h
      obtain ⟨⟨value, after⟩, hvalue, h⟩ := h
      split at h
      · rename_i hclose
        cases h
        exact .last (ihonce hvalue) (expect_eq_some.mp hclose)
      · simp only [Option.bind_eq_some_iff, expect_eq_some] at h
        obtain ⟨next, hnext, ⟨values, rest⟩, hvalues, heq⟩ := h
        cases heq
        exact .more (ihonce hvalue) hnext (ihitems hvalues)
    · intro text entries rest h
      simp only [scanEntries, Option.bind_eq_bind, Option.bind_eq_some_iff, expect_eq_some] at h
      obtain ⟨text, rfl, ⟨key, colon⟩, hkey, value, hcolon, ⟨v, after⟩, hvalue, h⟩ := h
      split at h
      · rename_i hclose
        cases h
        exact .last hkey hcolon (ihonce hvalue) (expect_eq_some.mp hclose)
      · simp only [Option.bind_eq_some_iff, expect_eq_some] at h
        obtain ⟨next, hnext, ⟨entries, rest⟩, hentries, heq⟩ := h
        cases heq
        exact .more hkey hcolon (ihonce hvalue) hnext (ihentries hentries)

theorem length_skipSpace (text : List Char) : (skipSpace text).length ≤ text.length :=
  List.length_dropWhile_le isSpace text

theorem length_of_skipSpace {text rest : List Char} {c : Char} (h : skipSpace text = c :: rest) :
    rest.length < text.length := by
  have := length_skipSpace text
  rw [h, List.length_cons] at this
  omega

theorem expectWord_eq_some {word text rest : List Char} :
    expectWord word text = some rest ↔ text = word ++ rest := by
  induction word generalizing text with
  | nil => simp [expectWord]
  | cons c word ih => simp [expectWord, Option.bind_eq_some_iff, expect_eq_some, ih]

theorem words_ne_empty : ∀ entry ∈ words floats, entry.1.toList ≠ [] := by
  simp [words]

theorem length_scanAtom {text rest : List Char} {value : Value F}
    (h : scanAtom floats text = some (value, rest)) : rest.length < text.length := by
  rcases Option.or_eq_some_iff.mp h with h | ⟨-, h⟩
  · obtain ⟨entry, hentry, h⟩ := List.exists_of_findSome?_eq_some h
    obtain ⟨rest, hword, heq⟩ := Option.map_eq_some_iff.mp h
    cases heq
    obtain rfl := expectWord_eq_some.mp hword
    have := List.length_pos_iff.mpr (words_ne_empty entry hentry)
    simp only [List.length_append]
    omega
  · obtain ⟨⟨literal, rest⟩, hnumber, heq⟩ := Option.map_eq_some_iff.mp h
    cases heq
    exact length_scanNumber hnumber

mutual

theorem Reads.length_lt {text rest : List Char} {value : Value F} :
    Reads floats text value rest → rest.length < text.length
  | .str h => Nat.lt_succ_of_lt (length_scanString h)
  | .emptyObj h => Nat.lt_succ_of_lt (length_of_skipSpace h)
  | .obj h => Nat.lt_succ_of_lt (h.length_lt.trans_le (length_skipSpace _))
  | .emptyArr h => Nat.lt_succ_of_lt (length_of_skipSpace h)
  | .arr h => Nat.lt_succ_of_lt (h.length_lt.trans_le (length_skipSpace _))
  | .atom h => length_scanAtom h

theorem ReadsItems.length_lt {text rest : List Char} {values : List (Value F)} :
    ReadsItems floats text values rest → rest.length < text.length
  | .last hvalue hclose => (length_of_skipSpace hclose).trans hvalue.length_lt
  | .more hvalue hnext hvalues =>
    calc
      rest.length < _ := hvalues.length_lt
      _ ≤ _ := length_skipSpace _
      _ < _ := length_of_skipSpace hnext
      _ < text.length := hvalue.length_lt

theorem ReadsEntries.length_lt {text rest : List Char} {entries : List (String × Value F)} :
    ReadsEntries floats text entries rest → rest.length < text.length
  | .last hkey hcolon hvalue hclose =>
    calc
      rest.length < _ := length_of_skipSpace hclose
      _ < _ := hvalue.length_lt
      _ ≤ _ := length_skipSpace _
      _ < _ := length_of_skipSpace hcolon
      _ < _ := length_scanString hkey
      _ ≤ _ := Nat.le_succ _
  | .more hkey hcolon hvalue hnext hentries =>
    calc
      rest.length < _ := hentries.length_lt
      _ ≤ _ := length_skipSpace _
      _ < _ := length_of_skipSpace hnext
      _ < _ := hvalue.length_lt
      _ ≤ _ := length_skipSpace _
      _ < _ := length_of_skipSpace hcolon
      _ < _ := length_scanString hkey
      _ ≤ _ := Nat.le_succ _

end

/-- The characters with which no constant and no number begins. -/
def openers : List Char :=
  [quotationMark, openBrace, '[', byteOrderMark, ']', closeBrace, ' ', '\t', '\n', '\r']

theorem scanAtom_opener {c : Char} (h : c ∈ openers) (text : List Char) :
    scanAtom floats (c :: text) = none := by
  revert c
  simp only [openers, List.forall_mem_cons, List.not_mem_nil, false_implies, implies_true,
    and_true]
  exact ⟨rfl, rfl, rfl, rfl, rfl, rfl, rfl, rfl, rfl, rfl⟩

/-- What is read begins with neither a space, a byte order mark nor the end of a list. -/
theorem Reads.head {text rest : List Char} {value : Value F} (h : Reads floats text value rest) :
    ∃ c text', text = c :: text' ∧
      c ∉ [byteOrderMark, ']', closeBrace, ' ', '\t', '\n', '\r'] := by
  cases h with
  | str _ => exact ⟨_, _, rfl, by decide⟩
  | emptyObj _ => exact ⟨_, _, rfl, by decide⟩
  | obj _ => exact ⟨_, _, rfl, by decide⟩
  | emptyArr _ => exact ⟨_, _, rfl, by decide⟩
  | arr _ => exact ⟨_, _, rfl, by decide⟩
  | atom h =>
    cases text with
    | nil => exact absurd (length_scanAtom h) (Nat.not_lt_zero _)
    | cons c text =>
      refine ⟨c, text, rfl, fun hc => ?_⟩
      rw [scanAtom_opener (List.mem_append_right [quotationMark, openBrace, '['] hc)] at h
      cases h

theorem Reads.skipSpace_eq {text rest : List Char} {value : Value F}
    (h : Reads floats text value rest) : skipSpace text = text := by
  obtain ⟨c, text, rfl, hc⟩ := h.head
  have hspace : isSpace c = false := by
    simp only [isSpace, decide_eq_false_iff_not]
    exact fun hmem => hc (List.mem_append_right [byteOrderMark, ']', closeBrace] hmem)
  simp [skipSpace, hspace]

theorem Reads.expect_eq {text rest : List Char} {value : Value F}
    (h : Reads floats text value rest) : expect ']' text = none := by
  obtain ⟨c, text, rfl, hc⟩ := h.head
  refine if_neg ?_
  rintro rfl
  exact hc (List.mem_cons_of_mem _ List.mem_cons_self)

theorem scanOnce_atom {n : Nat} {text rest : List Char} {value : Value F}
    (h : scanAtom floats text = some (value, rest)) :
    scanOnce floats (n + 1) text = some (value, rest) := by
  cases text with
  | nil => exact absurd (length_scanAtom h) (Nat.not_lt_zero _)
  | cons c text =>
    have hopener (hc : c ∈ openers) : False := by
      rw [scanAtom_opener hc] at h
      cases h
    have hquote : c ≠ quotationMark := by
      rintro rfl
      exact hopener (by decide)
    have hbrace : c ≠ openBrace := by
      rintro rfl
      exact hopener (by decide)
    have hbracket : c ≠ '[' := by
      rintro rfl
      exact hopener (by decide)
    rw [scanOnce, if_neg hquote, if_neg hbrace, if_neg hbracket, h]

theorem ReadsItems.expect_eq {text rest : List Char} {values : List (Value F)}
    (h : ReadsItems floats text values rest) : expect ']' text = none := by
  cases h with
  | last h _ => exact h.expect_eq
  | more h _ _ => exact h.expect_eq

theorem ReadsEntries.expect_eq {text rest : List Char} {entries : List (String × Value F)}
    (h : ReadsEntries floats text entries rest) : expect closeBrace text = none := by
  cases h with
  | last _ _ _ _ => rfl
  | more _ _ _ _ _ => rfl

theorem scan_bound {c : Char} {text : List Char} {n : Nat} (hn : 2 * (c :: text).length < n + 1) :
    2 * (skipSpace text).length + 1 < n := by
  have := length_skipSpace text
  rw [List.length_cons] at hn
  omega

theorem next_bound {text after next : List Char} {value : Value F} {c : Char} {n : Nat}
    (hvalue : Reads floats text value after) (hnext : skipSpace after = c :: next)
    (hn : 2 * text.length + 1 < n + 1) : 2 * (skipSpace next).length + 1 < n := by
  have := length_skipSpace next
  have := length_of_skipSpace hnext
  have := hvalue.length_lt
  omega

theorem value_bound {text colon value : List Char} {key : String} {n : Nat}
    (hkey : scanString text = some (key, colon)) (hcolon : skipSpace colon = ':' :: value)
    (hn : 2 * (quotationMark :: text).length + 1 < n + 1) :
    2 * (skipSpace value).length < n := by
  have := length_scanString hkey
  have := length_of_skipSpace hcolon
  have := length_skipSpace value
  rw [List.length_cons] at hn
  omega

theorem entry_bound {text colon value after next : List Char} {key : String} {v : Value F}
    {n : Nat} (hkey : scanString text = some (key, colon)) (hcolon : skipSpace colon = ':' :: value)
    (hvalue : Reads floats (skipSpace value) v after) (hnext : skipSpace after = ',' :: next)
    (hn : 2 * (quotationMark :: text).length + 1 < n + 1) :
    2 * (skipSpace next).length + 1 < n := by
  have := value_bound hkey hcolon hn
  have := hvalue.length_lt
  have := length_of_skipSpace hnext
  have := length_skipSpace next
  omega

theorem expect_comma {c : Char} (hc : c ≠ ',') (text : List Char) :
    expect c (',' :: text) = none :=
  if_neg hc.symm

mutual

/-- What is read is scanned, with enough recursion for its length. -/
theorem Reads.scanOnce_eq {text rest : List Char} {value : Value F} :
    Reads floats text value rest → ∀ {n}, 2 * text.length < n →
      scanOnce floats n text = some (value, rest)
  | _, 0, hn => absurd hn (Nat.not_lt_zero _)
  | .str h, n + 1, _ => by
    rw [scanOnce, if_pos rfl, h, Option.map_some]
  | .emptyObj h, n + 1, _ => by
    rw [scanOnce, if_neg (by decide), if_pos rfl, h, expect_self]
  | .obj h, n + 1, hn => by
    rw [scanOnce, if_neg (by decide), if_pos rfl, h.expect_eq]
    dsimp only
    rw [h.scanEntries_eq (scan_bound hn), Option.map_some]
  | .emptyArr h, n + 1, _ => by
    rw [scanOnce, if_neg (by decide), if_neg (by decide), if_pos rfl, h, expect_self]
  | .arr h, n + 1, hn => by
    rw [scanOnce, if_neg (by decide), if_neg (by decide), if_pos rfl, h.expect_eq]
    dsimp only
    rw [h.scanItems_eq (scan_bound hn), Option.map_some]
  | .atom h, n + 1, _ => scanOnce_atom h

theorem ReadsItems.scanItems_eq {text rest : List Char} {values : List (Value F)} :
    ReadsItems floats text values rest → ∀ {n}, 2 * text.length + 1 < n →
      scanItems floats n text = some (values, rest)
  | _, 0, hn => absurd hn (Nat.not_lt_zero _)
  | .last hvalue hclose, n + 1, hn => by
    simp only [scanItems, Option.bind_eq_bind, hvalue.scanOnce_eq (Nat.lt_of_succ_lt_succ hn),
      Option.bind_some, hclose, expect_self]
  | .more hvalue hnext hvalues, n + 1, hn => by
    simp only [scanItems, Option.bind_eq_bind, hvalue.scanOnce_eq (Nat.lt_of_succ_lt_succ hn),
      Option.bind_some, hnext, expect_comma (c := ']') (by decide), expect_self,
      hvalues.scanItems_eq (next_bound hvalue hnext hn)]

theorem ReadsEntries.scanEntries_eq {text rest : List Char} {entries : List (String × Value F)} :
    ReadsEntries floats text entries rest → ∀ {n}, 2 * text.length + 1 < n →
      scanEntries floats n text = some (entries, rest)
  | _, 0, hn => absurd hn (Nat.not_lt_zero _)
  | .last hkey hcolon hvalue hclose, n + 1, hn => by
    simp only [scanEntries, Option.bind_eq_bind, Option.bind_some, expect_self, hkey, hcolon,
      hvalue.scanOnce_eq (value_bound hkey hcolon hn), hclose]
  | .more hkey hcolon hvalue hnext hentries, n + 1, hn => by
    simp only [scanEntries, Option.bind_eq_bind, Option.bind_some, expect_self, hkey, hcolon,
      hvalue.scanOnce_eq (value_bound hkey hcolon hn), hnext,
      expect_comma (c := closeBrace) (by decide),
      hentries.scanEntries_eq (entry_bound hkey hcolon hvalue hnext hn)]

end

/-! What is written is read. -/

theorem scanWord_number {text : List Char} (h : scanNumber text ≠ none) :
    scanWord floats text = none := by
  obtain ⟨sign, c, text, rfl, hsign, hc⟩ := scanNumber_head h
  have hletters : ∀ letter ∈ ['n', 't', 'f', 'N', 'I', '-'], c ≠ letter := by
    have hdigits : ['n', 't', 'f', 'N', 'I', '-'].all (fun letter => !letter.isDigit) = true := rfl
    rintro letter hmem rfl
    have hdigit := List.all_eq_true.mp hdigits c hmem
    simp [hc] at hdigit
  simp only [List.forall_mem_cons, List.not_mem_nil, false_implies, implies_true, and_true]
    at hletters
  rcases hsign with rfl | rfl <;> simp [scanWord, words, expectWord, expect, hletters]

theorem scanAtom_literal (literal : Literal) {rest : List Char} (hrest : Stops rest)
    (h : scanNumber literal.text = some (literal, [])) :
    scanAtom floats (literal.text ++ rest) = some (number floats literal, rest) := by
  have hscan : scanNumber (literal.text ++ rest) = some (literal, rest) := by
    rw [hrest.scanNumber_append, h]
    rfl
  rw [scanAtom, scanWord_number (by simp [hscan]), hscan]
  rfl

theorem scanAtom_repr (x : F) {rest : List Char} (hrest : Stops rest) :
    scanAtom floats (floats.repr x ++ rest) = some (.float x, rest) := by
  rcases floats.repr_spec x with hconstant | ⟨hscan, hparse⟩
  · simp only [List.mem_cons, List.not_mem_nil, or_false, Prod.mk.injEq] at hconstant
    rcases hconstant with ⟨hrepr, rfl⟩ | ⟨hrepr, rfl⟩ | ⟨hrepr, rfl⟩ <;> rw [hrepr] <;> rfl
  · refine (scanAtom_literal ⟨floats.repr x, true⟩ hrest hscan).trans ?_
    simp [number, hparse]

theorem ReadsItems.skipSpace_eq {text rest : List Char} {values : List (Value F)}
    (h : ReadsItems floats text values rest) : skipSpace text = text := by
  cases h with
  | last h _ => exact h.skipSpace_eq
  | more h _ _ => exact h.skipSpace_eq

theorem ReadsEntries.skipSpace_eq {text rest : List Char} {entries : List (String × Value F)}
    (h : ReadsEntries floats text entries rest) : skipSpace text = text := by
  cases h with
  | last _ _ _ _ => rfl
  | more _ _ _ _ _ => rfl

theorem stops_cons {c : Char} (hc : c ∈ delimiters) (rest : List Char) : Stops (c :: rest) := by
  rintro c' ⟨⟩
  exact hc

theorem skipSpace_append {spaces : List Char} (h : ∀ c ∈ spaces, isSpace c = true)
    (text : List Char) : skipSpace (spaces ++ text) = skipSpace text :=
  List.dropWhile_append_of_pos h

section spacing

variable {spacing : Spacing}

open Value in
mutual

/-- A value that is written is read, before whatever may come after it. -/
theorem reads_write : ∀ value : Value F, WellFormed value → ∀ {rest}, Stops rest →
    Reads floats (write floats spacing value ++ rest) value rest
  | .null, _, _, _ => .atom rfl
  | .bool true, _, _, _ => .atom rfl
  | .bool false, _, _, _ => .atom rfl
  | .int n, _, _, hrest => by
    refine .atom ((scanAtom_literal ⟨intText n, false⟩ hrest (scanNumber_intText n)).trans ?_)
    simp [number, readInt_intText]
  | .float x, _, _, hrest => .atom (scanAtom_repr x hrest)
  | .str s, _, rest, _ => by
    have hscan := scanString_quote s rest
    simp only [write, quote, List.cons_append, List.append_assoc, List.nil_append]
    exact .str hscan
  | .arr [], _, _, _ => .emptyArr rfl
  | .arr (value :: values), h, rest, _ => by
    have hitems := readsItems_write (value :: values) h (List.cons_ne_nil _ _) rest
    simp only [write, List.cons_append, List.append_assoc, List.nil_append]
    exact .arr (hitems.skipSpace_eq.symm ▸ hitems)
  | .obj [], _, _, _ => .emptyObj rfl
  | .obj (entry :: entries), h, rest, _ => by
    have hentries := readsEntries_write (entry :: entries) h.2 (List.cons_ne_nil _ _) rest
    have hdict : Dict.updated [] (entry :: entries) = entry :: entries :=
      Dict.updated_eq_append h.1
    simp only [write, List.cons_append, List.append_assoc, List.nil_append]
    have hobj := Reads.obj (hentries.skipSpace_eq.symm ▸ hentries)
    rwa [hdict] at hobj

theorem readsItems_write : ∀ values : List (Value F), WellFormeds values → values ≠ [] → ∀ rest,
    ReadsItems floats
      ((',' :: spacing.comma).intercalate (writeItems floats spacing values) ++ ']' :: rest)
      values rest
  | [], _, hne, _ => absurd rfl hne
  | [value], h, _, rest => by
    rw [writeItems, writeItems, List.intercalate_singleton]
    exact .last (reads_write value h.1 (stops_cons (by decide) rest)) rfl
  | value :: value' :: values, h, _, rest => by
    have hitems := readsItems_write (value' :: values) h.2 (List.cons_ne_nil _ _) rest
    rw [writeItems, writeItems, List.intercalate_cons_cons, ← writeItems]
    simp only [List.append_assoc, List.cons_append]
    refine .more (reads_write value h.1 (stops_cons (by decide) _)) rfl ?_
    rw [skipSpace_append spacing.comma_spec, hitems.skipSpace_eq]
    exact hitems

theorem readsEntries_write : ∀ entries : List (String × Value F), WellFormedEntries entries →
    entries ≠ [] → ∀ rest,
    ReadsEntries floats
      ((',' :: spacing.comma).intercalate (writeEntries floats spacing entries) ++
        closeBrace :: rest) entries rest
  | [], _, hne, _ => absurd rfl hne
  | [(key, value)], h, _, rest => by
    have hvalue := reads_write value h.1 (stops_cons (c := closeBrace) (by decide) rest)
    have hskip := (skipSpace_append spacing.colon_spec _).trans hvalue.skipSpace_eq
    rw [writeEntries, writeEntries, List.intercalate_singleton, quote]
    simp only [List.cons_append, List.append_assoc, List.nil_append]
    exact .last (scanString_quote key _) rfl (hskip.symm ▸ hvalue :) rfl
  | (key, value) :: entry :: entries, h, _, rest => by
    have hentries := readsEntries_write (entry :: entries) h.2 (List.cons_ne_nil _ _) rest
    have hvalue := reads_write value h.1 (stops_cons (c := ',') (by decide)
      (spacing.comma ++ ((',' :: spacing.comma).intercalate
        (writeEntries floats spacing (entry :: entries)) ++ closeBrace :: rest)))
    have hskip := (skipSpace_append spacing.colon_spec _).trans hvalue.skipSpace_eq
    have hskip' := (skipSpace_append spacing.comma_spec _).trans hentries.skipSpace_eq
    rw [writeEntries, writeEntries, List.intercalate_cons_cons, ← writeEntries, quote]
    simp only [List.cons_append, List.append_assoc, List.nil_append]
    exact .more (scanString_quote key _) rfl (hskip.symm ▸ hvalue :) rfl
      (hskip'.symm ▸ hentries :)

end

mutual

theorem write_standard : ∀ value : Value F, write floats .standard value = encode floats value
  | .null | .bool _ | .int _ | .float _ | .str _ => by rw [write, encode]
  | .arr values => by rw [write, encode, writeItems_standard]; rfl
  | .obj entries => by rw [write, encode, writeEntries_standard]; rfl

theorem writeItems_standard : ∀ values : List (Value F),
    writeItems floats .standard values = encodeItems floats values
  | [] => by rw [writeItems, encodeItems]
  | value :: values => by rw [writeItems, encodeItems, write_standard, writeItems_standard]

theorem writeEntries_standard : ∀ entries : List (String × Value F),
    writeEntries floats .standard entries = encodeEntries floats entries
  | [] => by rw [writeEntries, encodeEntries]
  | (key, value) :: entries => by
    rw [writeEntries, encodeEntries, write_standard, writeEntries_standard, List.append_assoc]
    rfl

end

end spacing

/-- A text is loaded as the value that is read, with only spaces around it. -/
theorem loads_eq_some {s : String} {value : Value F} :
    loads floats s = some value ↔ s.toList.head? ≠ some byteOrderMark ∧
      ∃ rest, Reads floats (skipSpace s.toList) value rest ∧ skipSpace rest = [] := by
  unfold loads
  by_cases hmark : s.toList.head? = some byteOrderMark
  · simp [hmark]
  · rw [if_neg hmark]
    constructor
    · intro h
      simp only [Option.bind_eq_bind, Option.bind_eq_some_iff] at h
      obtain ⟨⟨value, rest⟩, hscan, h⟩ := h
      split_ifs at h with hrest
      cases h
      exact ⟨hmark, rest, (reads_of_scan _).1 hscan, hrest⟩
    · rintro ⟨-, rest, hreads, hrest⟩
      simp only [Option.bind_eq_bind, hreads.scanOnce_eq (Nat.lt_succ_self _), Option.bind_some,
        hrest, if_true]

/-- `json.loads(json.dumps(value, separators=...))` is the value. -/
theorem loads_dumpsWith (floats : FloatText F) (spacing : Spacing) {value : Value F}
    (h : value.WellFormed) :
    loads floats (dumpsWith floats spacing value) = some value := by
  have hreads : Reads floats (write floats spacing value ++ []) value [] :=
    reads_write value h fun c hc => nomatch hc
  rw [List.append_nil] at hreads
  rw [loads_eq_some, dumpsWith, String.toList_ofList, hreads.skipSpace_eq]
  refine ⟨?_, [], hreads, rfl⟩
  obtain ⟨c, text, heq, hc⟩ := hreads.head
  rw [heq]
  rintro ⟨⟩
  exact hc List.mem_cons_self

theorem dumpsWith_standard (value : Value F) :
    dumpsWith floats .standard value = dumps floats value := by
  rw [dumpsWith, dumps, write_standard]

/-- `json.loads(json.dumps(value))` is the value. -/
theorem loads_dumps {value : Value F} (h : value.WellFormed) :
    loads floats (dumps floats value) = some value := by
  rw [← dumpsWith_standard]
  exact loads_dumpsWith floats .standard h

namespace Value

theorem wellFormeds_iff {values : List (Value F)} :
    WellFormeds values ↔ ∀ value ∈ values, value.WellFormed := by
  induction values with
  | nil => simp [WellFormeds]
  | cons value values ih => simp [WellFormeds, ih]

theorem wellFormedEntries_iff {entries : List (String × Value F)} :
    WellFormedEntries entries ↔ ∀ entry ∈ entries, entry.2.WellFormed := by
  induction entries with
  | nil => simp [WellFormedEntries]
  | cons entry entries ih => simp [WellFormedEntries, ih]

end Value

theorem scanAtom_wellFormed {text rest : List Char} {value : Value F}
    (h : scanAtom floats text = some (value, rest)) : value.WellFormed := by
  rcases Option.or_eq_some_iff.mp h with h | ⟨-, h⟩
  · obtain ⟨entry, hentry, h⟩ := List.exists_of_findSome?_eq_some h
    obtain ⟨rest, -, heq⟩ := Option.map_eq_some_iff.mp h
    cases heq
    have hwords : ∀ entry ∈ words floats, entry.2.WellFormed := by
      simp [words, Value.WellFormed]
    exact hwords entry hentry
  · obtain ⟨⟨literal, rest⟩, -, heq⟩ := Option.map_eq_some_iff.mp h
    cases heq
    unfold number
    split_ifs <;> exact trivial

open Value in
mutual

theorem Reads.wellFormed {text rest : List Char} {value : Value F} :
    Reads floats text value rest → value.WellFormed
  | .str _ => trivial
  | .emptyObj _ => ⟨List.nodup_nil, trivial⟩
  | .obj h => by
    refine ⟨Dict.nodup_updated List.nodup_nil, wellFormedEntries_iff.mpr fun entry hentry => ?_⟩
    rcases Dict.mem_updated hentry with hmem | hmem
    · exact wellFormedEntries_iff.mp h.wellFormed entry hmem
    · cases hmem
  | .emptyArr _ => trivial
  | .arr h => h.wellFormed
  | .atom h => scanAtom_wellFormed h

theorem ReadsItems.wellFormed {text rest : List Char} {values : List (Value F)} :
    ReadsItems floats text values rest → WellFormeds values
  | .last hvalue _ => ⟨hvalue.wellFormed, trivial⟩
  | .more hvalue _ hvalues => ⟨hvalue.wellFormed, hvalues.wellFormed⟩

theorem ReadsEntries.wellFormed {text rest : List Char} {entries : List (String × Value F)} :
    ReadsEntries floats text entries rest → WellFormedEntries entries
  | .last _ _ hvalue _ => ⟨hvalue.wellFormed, trivial⟩
  | .more _ _ hvalue _ hentries => ⟨hvalue.wellFormed, hentries.wellFormed⟩

end

/-- What is loaded has distinct keys in every dictionary. -/
theorem loads_wellFormed {s : String} {value : Value F} (h : loads floats s = some value) :
    value.WellFormed := by
  obtain ⟨-, rest, hreads, -⟩ := loads_eq_some.mp h
  exact hreads.wellFormed

/-! Floats as they are written. -/

inductive Written : Type
  | nan | infinity | negInfinity
  | literal (digits : List Char) (h : scanNumber digits = some (⟨digits, true⟩, []))

def Written.repr : Written → List Char
  | nan => "NaN".toList
  | infinity => "Infinity".toList
  | negInfinity => "-Infinity".toList
  | literal digits _ => digits

def Written.isZero : Written → Bool
  | literal digits _ =>
    (digits.takeWhile fun c => c ≠ 'e' && c ≠ 'E').all fun c => c ∈ ['-', '0', '.']
  | _ => false

def written : FloatText Written where
  isZero := Written.isZero
  nan := .nan
  infinity := .infinity
  negInfinity := .negInfinity
  parse := fun digits =>
    if h : scanNumber digits = some (⟨digits, true⟩, []) then .literal digits h else .nan
  repr := Written.repr
  repr_spec := by
    rintro (_ | _ | _ | ⟨digits, h⟩)
    · exact .inl List.mem_cons_self
    · exact .inl (List.mem_cons_of_mem _ List.mem_cons_self)
    · exact .inl (List.mem_cons_of_mem _ (List.mem_cons_of_mem _ List.mem_cons_self))
    · exact .inr ⟨h, dif_pos h⟩

end Lib.JsonText
