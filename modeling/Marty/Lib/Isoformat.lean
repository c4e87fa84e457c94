import Mathlib.Data.List.TakeWhile
import Marty.Lib.Datetime
import Marty.Lib.JsonLexeme

/-! `datetime` values by their fields, and the texts that `isoformat` writes for them and
`fromisoformat` reads: besides those of `isoformat`, the basic formats and the week dates of
ISO 8601. -/

namespace Lib.Isoformat

open Lib.Datetime (Time seconds days civil)
open Lib.JsonLexeme (expect)

def isLeap (year : Nat) : Bool := year % 4 = 0 ∧ (year % 100 ≠ 0 ∨ year % 400 = 0)

def daysInMonth (year month : Nat) : Nat :=
  if month = 2 then if isLeap year then 29 else 28
  else if month ∈ [4, 6, 9, 11] then 30
  else 31

structure Clock where
  hour : Nat
  minute : Nat := 0
  second : Nat := 0
  microsecond : Nat := 0
  deriving DecidableEq

structure Fields where
  year : Nat
  month : Nat
  day : Nat
  clock : Clock
  utcoffset : Option Time := none
  deriving DecidableEq

/-- What the constructors of `datetime` and `timezone` ask for. -/
def Fields.Valid (f : Fields) : Prop :=
  (1 ≤ f.year ∧ f.year ≤ 9999) ∧ (1 ≤ f.month ∧ f.month ≤ 12) ∧
    (1 ≤ f.day ∧ f.day ≤ daysInMonth f.year f.month) ∧ f.clock.hour < 24 ∧ f.clock.minute < 60 ∧
    f.clock.second < 60 ∧ f.clock.microsecond < 1000000 ∧
    ∀ offset ∈ f.utcoffset, offset.natAbs < 86400000000

instance (f : Fields) : Decidable f.Valid := inferInstanceAs (Decidable (_ ∧ _))

structure Datetime extends Fields where
  valid : toFields.Valid
  deriving DecidableEq

def Fields.datetime? (f : Fields) : Option Datetime := if h : f.Valid then some ⟨f, h⟩ else none

theorem Datetime.datetime?_toFields (d : Datetime) : d.toFields.datetime? = some d :=
  dif_pos d.valid

/-! Order. -/

def daysBeforeYear (year : Nat) : Nat :=
  (year - 1) * 365 + (year - 1) / 4 - (year - 1) / 100 + (year - 1) / 400

def daysBeforeMonth (year month : Nat) : Nat :=
  ((List.range' 1 (month - 1)).map (daysInMonth year)).sum

/-- `toordinal()`: the first day is 1. -/
def toordinal (year month day : Nat) : Nat :=
  daysBeforeYear year + daysBeforeMonth year month + day

def Clock.total (c : Clock) : Nat :=
  ((c.hour * 60 + c.minute) * 60 + c.second) * 1000000 + c.microsecond

def Fields.wall (f : Fields) : Time := days (toordinal f.year f.month f.day) + f.clock.total

/-- `d < d'`, which raises (`none`) when only one of the two is aware. -/
def Datetime.lt? (d d' : Datetime) : Option Bool :=
  match d.utcoffset, d'.utcoffset with
  | none, none => some (d.wall < d'.wall)
  | some offset, some offset' => some (d.wall - offset < d'.wall - offset')
  | _, _ => none

/-! Writing. -/

/-- `n` with leading zeros. -/
def decimal : Nat → Nat → List Char
  | 0, _ => []
  | width + 1, n => decimal width (n / 10) ++ [Nat.digitChar (n % 10)]

def fractionText (microsecond : Nat) : List Char :=
  if microsecond = 0 then [] else '.' :: decimal 6 microsecond

def clockText (c : Clock) : List Char :=
  decimal 2 c.hour ++ ':' :: (decimal 2 c.minute ++ ':' :: (decimal 2 c.second ++
    fractionText c.microsecond))

/-- The seconds of an offset are there when it has some. -/
def offsetText (offset : Time) : List Char :=
  let size := offset.natAbs
  let second := size / 1000000
  (if offset < 0 then '-' else '+') ::
    if size % 60000000 = 0 then
      decimal 2 (second / 3600) ++ ':' :: decimal 2 (second / 60 % 60)
    else clockText ⟨second / 3600, second / 60 % 60, second % 60, size % 1000000⟩

def dateText (year month day : Nat) : List Char :=
  decimal 4 year ++ '-' :: (decimal 2 month ++ '-' :: decimal 2 day)

def Datetime.isoformat (d : Datetime) : String :=
  String.ofList (dateText d.year d.month d.day ++ 'T' :: (clockText d.clock ++
    (d.utcoffset.map offsetText).getD []))

/-! Reading. -/

def digit (c : Char) : Option Nat := if c.isDigit then some (c.toNat - 48) else none

def readDecimal (digits : List Char) : Option Nat :=
  digits.foldlM (fun n c => (digit c).map (10 * n + ·)) 0

/-- A number of so many digits, and what is left. -/
def scanDecimal (width : Nat) (text : List Char) : Option (Nat × List Char) :=
  if text.length < width then none
  else (readDecimal (text.take width)).map fun n => (n, text.drop width)

/-- The separator, where the text has one. -/
def scanSeparator (c : Char) (separated : Bool) (text : List Char) : Option (List Char) :=
  if separated then expect c text else some text

/-- At least one digit; those after the sixth are dropped. -/
def readFraction : List Char → Option Nat
  | [] => some 0
  | c :: digits =>
    if (c = '.' ∨ c = ',') ∧ digits ≠ [] ∧ digits.all Char.isDigit then
      readDecimal ((digits ++ List.replicate 6 '0').take 6)
    else none

def readSeconds (hour minute : Nat) (separated : Bool) (text : List Char) : Option Clock := do
  let (second, rest) ← scanSeparator ':' separated text >>= scanDecimal 2
  let microsecond ← readFraction rest
  some ⟨hour, minute, second, microsecond⟩

def readMinutes (hour : Nat) (separated : Bool) (text : List Char) : Option Clock := do
  let (minute, rest) ← scanSeparator ':' separated text >>= scanDecimal 2
  if rest = [] then some { hour := hour, minute := minute }
  else readSeconds hour minute separated rest

def readClock (text : List Char) : Option Clock := do
  let (hour, rest) ← scanDecimal 2 text
  if rest = [] then some { hour := hour }
  else readMinutes hour (rest.head? = some ':') rest

def isZoneMark (c : Char) : Bool := c = '+' || c = '-' || c = 'Z'

def readOffset : List Char → Option (Option Time)
  | [] => some none
  | mark :: text =>
    if mark = 'Z' then if text = [] then some (some 0) else none
    else (readClock text).map fun c => some (if mark = '-' then -c.total else c.total)

def readTime (text : List Char) : Option (Clock × Option Time) := do
  let clock ← readClock (text.takeWhile (!isZoneMark ·))
  let offset ← readOffset (text.dropWhile (!isZoneMark ·))
  some (clock, offset)

/-- Whether an ISO year has a week 53. -/
def isLong (year : Nat) : Bool :=
  let firstWeekday := toordinal year 1 1 % 7
  firstWeekday = 4 ∨ firstWeekday = 3 ∧ isLeap year

/-- The ordinal of the Monday of the first week. -/
def isoWeek1Monday (year : Nat) : Nat :=
  let firstDay := toordinal year 1 1
  let firstWeekday := (firstDay + 6) % 7
  if firstWeekday > 3 then firstDay - firstWeekday + 7 else firstDay - firstWeekday

def ofIsoWeek (year week day : Nat) : Option (Nat × Nat × Nat) :=
  if (1 ≤ year ∧ year ≤ 9999) ∧ (1 ≤ week ∧ (week ≤ 52 ∨ week = 53 ∧ isLong year)) ∧
      1 ≤ day ∧ day ≤ 7 then
    let ordinal := isoWeek1Monday year + (week - 1) * 7 + (day - 1)
    -- The day number 0 is 1970-01-01.
    let (year, month, day) := civil (ordinal - 719163)
    some (year.toNat, month.toNat, day.toNat)
  else none

def readWeekDate (year : Nat) (separated : Bool) (text : List Char) :
    Option (Nat × Nat × Nat) := do
  let (week, rest) ← scanDecimal 2 text
  if rest = [] then ofIsoWeek year week 1
  else
    let (day, rest) ← scanSeparator '-' separated rest >>= scanDecimal 1
    if rest = [] then ofIsoWeek year week day else none

def readMonthDate (year : Nat) (separated : Bool) (text : List Char) :
    Option (Nat × Nat × Nat) := do
  let (month, rest) ← scanDecimal 2 text
  let (day, rest) ← scanSeparator '-' separated rest >>= scanDecimal 2
  if rest = [] then some (year, month, day) else none

def readDate (text : List Char) : Option (Nat × Nat × Nat) := do
  let (year, rest) ← scanDecimal 4 text
  let separated := rest.head? = some '-'
  let rest := if separated then rest.drop 1 else rest
  match expect 'W' rest with
  | some rest => readWeekDate year separated rest
  | none => readMonthDate year separated rest

/-- Where the date ends.  After a week the next hyphen may be a separator of the date or the one
before the time. -/
def separatorAt (text : List Char) : Option Nat :=
  if text.length < 7 then none
  else if text.length = 7 then some 7
  else if text[4]? = some '-' then
    if text[5]? = some 'W' then
      if text[8]? = some '-' then
        if text.length = 9 then none
        else if text[10]?.any Char.isDigit then some 8
        else some 10
      else some 8
    else some 10
  else if text[4]? = some 'W' then
    let stop := 7 + ((text.drop 7).takeWhile Char.isDigit).length
    if stop < 9 then some stop else if stop % 2 = 0 then some 7 else some 8
  else some 8

/-- What comes after the date; any character separates it from the time. -/
def readAfter : List Char → Option (Clock × Option Time)
  | [] => some ({ hour := 0 }, none)
  | _ :: text => readTime text

/-- `none` is a `ValueError`. -/
def fromisoformat (s : String) : Option Datetime := do
  let text := s.toList
  let stop ← separatorAt text
  let (year, month, day) ← readDate (text.take stop)
  let (clock, offset) ← readAfter (text.drop stop)
  Fields.datetime? ⟨year, month, day, clock, offset⟩

/-! What has been written is read. -/

theorem length_decimal (width n : Nat) : (decimal width n).length = width := by
  induction width generalizing n with
  | zero => rfl
  | succ width ih => simp [decimal, ih]

theorem isDigit_digitChar : ∀ n < 10, (Nat.digitChar n).isDigit = true := by
  decide

theorem digit_digitChar : ∀ n < 10, digit (Nat.digitChar n) = some n := by
  decide

theorem isDigit_of_mem_decimal {c : Char} {width n : Nat} (h : c ∈ decimal width n) :
    c.isDigit = true := by
  induction width generalizing n with
  | zero => cases h
  | succ width ih =>
    rcases List.mem_append.mp h with hinit | hlast
    · exact ih hinit
    · rw [List.mem_singleton.mp hlast]
      exact isDigit_digitChar _ (Nat.mod_lt n (by omega))

theorem readDecimal_decimal {width n : Nat} (h : n < 10 ^ width) :
    readDecimal (decimal width n) = some n := by
  induction width generalizing n with
  | zero =>
    obtain rfl : n = 0 := by omega
    rfl
  | succ width ih =>
    have hrec := ih (show n / 10 < 10 ^ width by omega)
    unfold readDecimal at hrec ⊢
    rw [decimal, List.foldlM_append, hrec]
    simp [digit_digitChar _ (Nat.mod_lt n (by omega : 0 < 10)), Nat.div_add_mod]

theorem scanDecimal_decimal {width n : Nat} (h : n < 10 ^ width) (rest : List Char) :
    scanDecimal width (decimal width n ++ rest) = some (n, rest) := by
  have hlength := length_decimal width n
  have hlong : ¬ (decimal width n ++ rest).length < width := by
    rw [List.length_append]
    omega
  rw [scanDecimal, if_neg hlong, List.take_left' hlength, List.drop_left' hlength,
    readDecimal_decimal h]
  rfl

/-- Two digits after a separator. -/
theorem scan_next {n : Nat} (c : Char) (h : n < 100) (rest : List Char) :
    (scanSeparator c true (c :: (decimal 2 n ++ rest)) >>= scanDecimal 2) = some (n, rest) := by
  show (expect c (c :: (decimal 2 n ++ rest))).bind (scanDecimal 2) = _
  rw [JsonLexeme.expect_self]
  exact scanDecimal_decimal h rest

theorem readFraction_fractionText {microsecond : Nat} (h : microsecond < 1000000) :
    readFraction (fractionText microsecond) = some microsecond := by
  unfold fractionText
  split
  case isTrue hzero => rw [hzero, readFraction]
  case isFalse =>
    have hlength := length_decimal 6 microsecond
    have hdigits : (decimal 6 microsecond).all Char.isDigit = true :=
      List.all_eq_true.mpr fun c hc => isDigit_of_mem_decimal hc
    have hne : decimal 6 microsecond ≠ [] := by
      intro hnil
      rw [hnil] at hlength
      cases hlength
    rw [readFraction, if_pos ⟨.inl rfl, hne, hdigits⟩, List.take_left' hlength]
    exact readDecimal_decimal h

theorem readMinutes_text {hour minute : Nat} (h : minute < 100) :
    readMinutes hour true (':' :: decimal 2 minute) = some { hour := hour, minute := minute } := by
  have hscan := scan_next ':' h []
  rw [List.append_nil] at hscan
  rw [readMinutes, hscan]
  rfl

theorem readClock_minutes {hour minute : Nat} (hhour : hour < 100) (hminute : minute < 100) :
    readClock (decimal 2 hour ++ ':' :: decimal 2 minute) =
      some { hour := hour, minute := minute } := by
  rw [readClock, scanDecimal_decimal hhour]
  exact readMinutes_text hminute

theorem readClock_clockText {c : Clock} (hhour : c.hour < 100) (hminute : c.minute < 100)
    (hsecond : c.second < 100) (hmicrosecond : c.microsecond < 1000000) :
    readClock (clockText c) = some c := by
  rw [clockText, readClock, scanDecimal_decimal hhour]
  show readMinutes c.hour true _ = _
  rw [readMinutes, scan_next ':' hminute]
  show readSeconds c.hour c.minute true _ = _
  rw [readSeconds, scan_next ':' hsecond]
  show (readFraction _).bind _ = _
  rw [readFraction_fractionText hmicrosecond]
  rfl

/-- The part of `offsetText` after the sign. -/
theorem readClock_offset {size : Nat} (h : size < 86400000000) :
    let second := size / 1000000
    (readClock (if size % 60000000 = 0 then
        decimal 2 (second / 3600) ++ ':' :: decimal 2 (second / 60 % 60)
      else clockText ⟨second / 3600, second / 60 % 60, second % 60, size % 1000000⟩)).map
        Clock.total = some size := by
  intro second
  have hhour : second / 3600 < 100 := by omega
  have hminute : second / 60 % 60 < 100 := by omega
  split
  case isTrue hwhole =>
    rw [readClock_minutes hhour hminute, Option.map_some, Clock.total]
    simp only [Option.some.injEq]
    omega
  case isFalse =>
    have hsecond : second % 60 < 100 := by omega
    have hmicrosecond : size % 1000000 < 1000000 := by omega
    rw [readClock_clockText hhour hminute hsecond hmicrosecond, Option.map_some, Clock.total]
    simp only [Option.some.injEq]
    omega

theorem readOffset_offsetText {offset : Int} (h : offset.natAbs < 86400000000) :
    readOffset (offsetText offset) = some (some offset) := by
  obtain ⟨c, hread, htotal⟩ := Option.map_eq_some_iff.mp (readClock_offset h)
  have hmark : ¬ (if offset < 0 then '-' else '+') = 'Z' := by
    split <;> decide
  rw [offsetText, readOffset, if_neg hmark, hread, Option.map_some, htotal]
  by_cases hneg : offset < 0
  · have hsize : -(offset.natAbs : Int) = offset := by omega
    simp only [hneg, if_true, hsize]
  · have hplus : ¬ '+' = '-' := by decide
    have hsize : (offset.natAbs : Int) = offset := by omega
    simp only [hneg, if_false, hplus, hsize]

theorem not_isDigit_of_mem : ∀ c ∈ ['+', '-', 'Z', 'W'], c.isDigit = false := by
  simp only [List.forall_mem_cons, List.not_mem_nil, false_implies, implies_true, and_true]
  exact ⟨rfl, rfl, rfl, rfl⟩

theorem isZoneMark_of_isDigit {c : Char} (h : c.isDigit = true) : isZoneMark c = false := by
  by_contra hmark
  have hmem : c ∈ ['+', '-', 'Z', 'W'] := by
    simp only [isZoneMark, Bool.not_eq_false, Bool.or_eq_true, decide_eq_true_eq] at hmark
    simp only [List.mem_cons]
    tauto
  rw [not_isDigit_of_mem c hmem] at h
  cases h

theorem isZoneMark_of_mem_clockText {c : Clock} {x : Char} (h : x ∈ clockText c) :
    isZoneMark x = false := by
  have hdecimal {width n : Nat} (hx : x ∈ decimal width n) : isZoneMark x = false :=
    isZoneMark_of_isDigit (isDigit_of_mem_decimal hx)
  have hfraction (hx : x ∈ fractionText c.microsecond) : isZoneMark x = false := by
    unfold fractionText at hx
    split at hx
    · cases hx
    · rcases List.mem_cons.mp hx with rfl | hx
      · rfl
      · exact hdecimal hx
  simp only [clockText, List.mem_append, List.mem_cons] at h
  rcases h with hx | rfl | hx | rfl | hx | hx
  · exact hdecimal hx
  · rfl
  · exact hdecimal hx
  · rfl
  · exact hdecimal hx
  · exact hfraction hx

/-- The offset begins with a mark. -/
theorem span_offset (offset : Option Time) :
    ((offset.map offsetText).getD []).takeWhile (!isZoneMark ·) = [] ∧
      ((offset.map offsetText).getD []).dropWhile (!isZoneMark ·) =
        (offset.map offsetText).getD [] := by
  cases offset with
  | none => exact ⟨rfl, rfl⟩
  | some offset =>
    have hmark : ¬ (!isZoneMark (if offset < 0 then '-' else '+')) = true := by
      split <;> decide
    exact ⟨List.takeWhile_cons_of_neg hmark, List.dropWhile_cons_of_neg hmark⟩

theorem readTime_text {c : Clock} {offset : Option Time} (hhour : c.hour < 24)
    (hminute : c.minute < 60) (hsecond : c.second < 60) (hmicrosecond : c.microsecond < 1000000)
    (hoffset : ∀ o ∈ offset, o.natAbs < 86400000000) :
    readTime (clockText c ++ (offset.map offsetText).getD []) = some (c, offset) := by
  have hclock : ∀ x ∈ clockText c, (!isZoneMark x) = true := fun x hx => by
    rw [isZoneMark_of_mem_clockText hx]
    rfl
  have hread : readOffset ((offset.map offsetText).getD []) = some offset := by
    cases offset with
    | none => rfl
    | some offset => exact readOffset_offsetText (hoffset offset rfl)
  obtain ⟨htake, hdrop⟩ := span_offset offset
  rw [readTime, List.takeWhile_append_of_pos hclock, List.dropWhile_append_of_pos hclock, htake,
    hdrop, List.append_nil, readClock_clockText (by omega) (by omega) (by omega) hmicrosecond,
    hread]
  rfl

/-- No number begins with a letter. -/
theorem expect_decimal {c : Char} (hc : c.isDigit = false) (width n : Nat) (rest : List Char) :
    expect c (decimal (width + 1) n ++ rest) = none := by
  cases htext : decimal (width + 1) n with
  | nil => simpa [htext] using length_decimal (width + 1) n
  | cons x digits =>
    have hmem : x ∈ decimal (width + 1) n := htext ▸ List.mem_cons_self
    have hx : x.isDigit = true := isDigit_of_mem_decimal hmem
    refine if_neg ?_
    rintro rfl
    rw [hc] at hx
    cases hx

theorem readDate_dateText {year month day : Nat} (hyear : year < 10000) (hmonth : month < 100)
    (hday : day < 100) : readDate (dateText year month day) = some (year, month, day) := by
  have hweek : expect 'W' (decimal 2 month ++ '-' :: decimal 2 day) = none :=
    expect_decimal rfl 1 month _
  have hscan := scan_next '-' hday []
  rw [List.append_nil] at hscan
  rw [dateText, readDate, scanDecimal_decimal hyear]
  show (match expect 'W' (decimal 2 month ++ '-' :: decimal 2 day) with
    | some rest => readWeekDate year true rest
    | none => readMonthDate year true (decimal 2 month ++ '-' :: decimal 2 day)) = _
  rw [hweek]
  show readMonthDate year true _ = _
  rw [readMonthDate, scanDecimal_decimal hmonth]
  show (scanSeparator '-' true ('-' :: decimal 2 day) >>= scanDecimal 2).bind _ = _
  rw [hscan]
  rfl

theorem length_dateText (year month day : Nat) : (dateText year month day).length = 10 := by
  simp [dateText, length_decimal]

theorem separatorAt_text (year month day : Nat) (time : List Char) :
    separatorAt (dateText year month day ++ 'T' :: time) = some 10 := by
  have hlength : (dateText year month day ++ 'T' :: time).length = 11 + time.length := by
    rw [List.length_append, length_dateText, List.length_cons]
    omega
  have hshort : ¬ 11 + time.length < 7 := by omega
  have hseven : ¬ 11 + time.length = 7 := by omega
  have hhyphen : (dateText year month day ++ 'T' :: time)[4]? = some '-' := rfl
  have hmonth : (dateText year month day ++ 'T' :: time)[5]? =
      some (Nat.digitChar (month / 10 % 10)) := rfl
  have hweek : ¬ some (Nat.digitChar (month / 10 % 10)) = some 'W' := by
    intro h
    have hdigit := isDigit_digitChar (month / 10 % 10) (Nat.mod_lt _ (by omega))
    rw [Option.some.inj h] at hdigit
    cases hdigit
  rw [separatorAt, hlength, if_neg hshort, if_neg hseven, if_pos hhyphen, hmonth, if_neg hweek]

theorem daysInMonth_le (year month : Nat) : daysInMonth year month ≤ 31 := by
  unfold daysInMonth
  split_ifs <;> decide

/-- `datetime.fromisoformat(d.isoformat())` is `d`. -/
theorem fromisoformat_isoformat (d : Datetime) : fromisoformat d.isoformat = some d := by
  obtain ⟨hyear, hmonth, hday, hhour, hminute, hsecond, hmicrosecond, hoffset⟩ := d.valid
  have hlast := daysInMonth_le d.year d.month
  have hlength := length_dateText d.year d.month d.day
  have hdate : readDate (dateText d.year d.month d.day) = some (d.year, d.month, d.day) :=
    readDate_dateText (by omega) (by omega) (by omega)
  have htime := readTime_text hhour hminute hsecond hmicrosecond hoffset
  rw [fromisoformat, Datetime.isoformat, String.toList_ofList, separatorAt_text]
  show (readDate (List.take 10 _)).bind _ = _
  rw [List.take_left' hlength, List.drop_left' hlength, hdate]
  show (readTime _).bind _ = _
  rw [htime]
  exact d.datetime?_toFields

/-! Dates. -/

structure Date where
  year : Nat
  month : Nat
  day : Nat
  year_mem : 1 ≤ year ∧ year ≤ 9999
  month_mem : 1 ≤ month ∧ month ≤ 12
  day_mem : 1 ≤ day ∧ day ≤ daysInMonth year month
  deriving DecidableEq

namespace Date

variable (d : Date)

def toordinal : Nat := Isoformat.toordinal d.year d.month d.day

def isoformat : String := String.ofList (dateText d.year d.month d.day)

/-- Its first instant, without an offset. -/
def midnight : Fields := ⟨d.year, d.month, d.day, { hour := 0 }, none⟩

theorem valid_midnight : d.midnight.Valid :=
  ⟨d.year_mem, d.month_mem, d.day_mem, Nat.zero_lt_succ _, Nat.zero_lt_succ _, Nat.zero_lt_succ _,
    Nat.zero_lt_succ _, fun _ h => by cases h⟩

end Date

def Datetime.date (d : Datetime) : Date where
  year := d.year
  month := d.month
  day := d.day
  year_mem := d.valid.1
  month_mem := d.valid.2.1
  day_mem := d.valid.2.2.1

theorem separatorAt_dateText (year month day : Nat) :
    separatorAt (dateText year month day) = some 10 := by
  have hhyphen : (dateText year month day)[4]? = some '-' := rfl
  have hmonth : (dateText year month day)[5]? = some (Nat.digitChar (month / 10 % 10)) := rfl
  have hweek : ¬ some (Nat.digitChar (month / 10 % 10)) = some 'W' := by
    intro h
    have hdigit := isDigit_digitChar (month / 10 % 10) (Nat.mod_lt _ (by omega))
    rw [Option.some.inj h] at hdigit
    cases hdigit
  rw [separatorAt, length_dateText, if_neg (by decide), if_neg (by decide), if_pos hhyphen, hmonth,
    if_neg hweek]

/-- `datetime.fromisoformat(d.isoformat()).date()` is `d`. -/
theorem date_fromisoformat (d : Date) : (fromisoformat d.isoformat).map Datetime.date = some d := by
  have hyear := d.year_mem
  have hmonth := d.month_mem
  have hday := d.day_mem
  have hlast := daysInMonth_le d.year d.month
  have hlength := length_dateText d.year d.month d.day
  have hdate : readDate (dateText d.year d.month d.day) = some (d.year, d.month, d.day) :=
    readDate_dateText (by omega) (by omega) (by omega)
  have hvalid : d.midnight.datetime? = some ⟨d.midnight, d.valid_midnight⟩ :=
    dif_pos d.valid_midnight
  rw [fromisoformat, Date.isoformat, String.toList_ofList, separatorAt_dateText]
  simp only [Option.bind_eq_bind, Option.bind_some, List.take_of_length_le hlength.le,
    List.drop_of_length_le hlength.le, hdate, readAfter]
  change (d.midnight.datetime?).map Datetime.date = some d
  rw [hvalid]
  rfl

end Lib.Isoformat
