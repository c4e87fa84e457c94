import Mathlib.Data.Int.Notation

/-! Naive `datetime` values as microseconds since 1970-01-01, and `datetime` values that may be
aware of their offset from UTC. -/

namespace Lib.Datetime

abbrev Time := Int

def seconds (n : Int) : Time := n * 1000000

def hours (n : Int) : Time := seconds (n * 3600)

def days (n : Int) : Time := seconds (n * 86400)

/-- The `days` attribute of a `timedelta`, which rounds towards the past. -/
def daysOf (delta : Time) : Int := delta / days 1

/-- The `seconds` attribute of a `timedelta`, what is left of it after its days. -/
def secondsOf (delta : Time) : Int := delta % days 1 / seconds 1

/-- Year, month and day of a day number.  The calendar repeats every 146097 days; inside that
era the year is counted from March, so that the leap day is its last. -/
def civil (day : Int) : Int × Int × Int :=
  let day := day + 719468
  let dayOfEra := day % 146097
  let yearOfEra :=
    (dayOfEra - dayOfEra / 1460 + dayOfEra / 36524 - dayOfEra / 146096) / 365
  let dayOfYear := dayOfEra - (365 * yearOfEra + yearOfEra / 4 - yearOfEra / 100)
  let month := (5 * dayOfYear + 2) / 153
  let year := yearOfEra + day / 146097 * 400
  let dayOfMonth := dayOfYear - (153 * month + 2) / 5 + 1
  if month < 10 then (year, month + 3, dayOfMonth) else (year + 1, month - 9, dayOfMonth)

def pad (width : Nat) (n : Int) : String :=
  let digits := toString n.toNat
  String.ofList (List.replicate (width - digits.length) '0') ++ digits

/-- `datetime.isoformat`, which leaves out the fraction of a whole second. -/
def isoformat (t : Time) : String :=
  let (year, month, day) := civil (daysOf t)
  let second := t % days 1 / seconds 1
  let micro := t % seconds 1
  pad 4 year ++ "-" ++ pad 2 month ++ "-" ++ pad 2 day ++ "T" ++ pad 2 (second / 3600) ++ ":" ++
    pad 2 (second / 60 % 60) ++ ":" ++ pad 2 (second % 60) ++
    (if micro = 0 then "" else "." ++ pad 6 micro)

/-- The format `%Y%m%d`. -/
def strftimeDay (t : Time) : String :=
  let (year, month, day) := civil (daysOf t)
  toString year ++ pad 2 month ++ pad 2 day

/-- The format `%Y%m%d%H%M`. -/
def strftimeMinute (t : Time) : String :=
  let second := t % days 1 / seconds 1
  strftimeDay t ++ pad 2 (second / 3600) ++ pad 2 (second / 60 % 60)

/-- A `datetime`; `wall` is the local date and time. -/
structure Stamp where
  wall : Time
  utcoffset : Option Time := none
  deriving DecidableEq

/-- `datetime.now(timezone.utc)` -/
def Stamp.utc (now : Time) : Stamp := ⟨now, some 0⟩

/-- `d < d'`, which raises (`none`) when only one of the two is aware. -/
def Stamp.lt? (d d' : Stamp) : Option Bool :=
  match d.utcoffset, d'.utcoffset with
  | none, none => some (d.wall < d'.wall)
  | some offset, some offset' => some (d.wall - offset < d'.wall - offset')
  | _, _ => none

/-- `datetime.max`, as a local date and time. -/
def maxWall : Time := days 2932897 - 1

/-- `d + delta` for a `delta` that is not negative, which raises beyond `datetime.max`. -/
def Stamp.add? (d : Stamp) (delta : Time) : Option Stamp :=
  if d.wall + delta ≤ maxWall then some { d with wall := d.wall + delta } else none

/-- What is not before a time is not before an earlier one. -/
theorem Stamp.not_lt_of_le {d : Stamp} {start stop : Time} (hle : start ≤ stop)
    (h : d.lt? (.utc stop) = some false) : d.lt? (.utc start) = some false := by
  obtain ⟨wall, _ | offset⟩ := d
  · cases h
  · have hnot : ¬ wall - offset < stop - 0 := of_decide_eq_false (Option.some.inj h)
    refine congrArg some (decide_eq_false fun hlt => hnot ?_)
    exact Int.lt_of_lt_of_le hlt (Int.sub_le_sub_right hle 0)

theorem Stamp.lt_of_between {d : Stamp} {start stop : Time} (h : d.lt? (.utc start) = some false)
    (h' : d.lt? (.utc stop) = some true) : start < stop := by
  obtain ⟨wall, _ | offset⟩ := d
  · cases h
  · have hnot : ¬ wall - offset < start - 0 := of_decide_eq_false (Option.some.inj h)
    have hlt : wall - offset < stop - 0 := of_decide_eq_true (Option.some.inj h')
    rw [Int.sub_zero] at hnot hlt
    exact Int.lt_of_le_of_lt (Int.not_lt.mp hnot) hlt

def Stamp.hour (d : Stamp) : Int := d.wall % days 1 / hours 1

/-- `d.date()`, as a number of days. -/
def Stamp.date (d : Stamp) : Int := daysOf d.wall

/-- The end of `isoformat` for an aware value: the seconds of an offset are there when it has
some. -/
def formatOffset (offset : Time) : String :=
  let size := max offset (-offset)
  let second := size / seconds 1
  let micro := size % seconds 1
  (if offset < 0 then "-" else "+") ++ pad 2 (second / 3600) ++ ":" ++ pad 2 (second / 60 % 60) ++
    (if size % seconds 60 = 0 then "" else ":" ++ pad 2 (second % 60)) ++
    (if micro = 0 then "" else "." ++ pad 6 micro)

def Stamp.isoformat (d : Stamp) : String :=
  Lib.Datetime.isoformat d.wall ++ (d.utcoffset.map formatOffset).getD ""

end Lib.Datetime
