import Mathlib.Data.Int.Order.Basic
import Mathlib.Data.String.Basic

namespace AgenticSecurity.Python

def isLeap (year : ℕ) : Bool := year % 4 = 0 && (year % 100 ≠ 0 || year % 400 = 0)

def daysInMonth (year month : ℕ) : ℕ :=
  if month = 2 then if isLeap year then 29 else 28
  else if month = 4 ∨ month = 6 ∨ month = 9 ∨ month = 11 then 30 else 31

def daysBeforeMonth (year : ℕ) : ℕ → ℕ
  | 0 | 1 => 0
  | month + 1 => daysBeforeMonth year month + daysInMonth year month

def daysBeforeYear (year : ℕ) : ℕ :=
  (year - 1) * 365 + (year - 1) / 4 - (year - 1) / 100 + (year - 1) / 400

/-- `datetime.date`: a day of the proleptic Gregorian calendar in years 1 to 9999. -/
structure Date where
  year : ℕ
  month : ℕ
  day : ℕ
  valid : 1 ≤ year ∧ year ≤ 9999 ∧ 1 ≤ month ∧ month ≤ 12 ∧ 1 ≤ day ∧ day ≤ daysInMonth year month
  deriving DecidableEq

def Date.toOrdinal (d : Date) : ℤ := daysBeforeYear d.year + daysBeforeMonth d.year d.month + d.day

/-- A decimal number with leading zeros, as `format(n, "0wd")`. -/
def padded (width n : ℕ) : String :=
  String.ofList (List.replicate (width - (Nat.repr n).length) '0') ++ Nat.repr n

def Date.isoformat (d : Date) : String :=
  padded 4 d.year ++ "-" ++ padded 2 d.month ++ "-" ++ padded 2 d.day

def microsecondsPerDay : ℤ := 86400000000

/-- An aware `datetime.datetime`: the local date, the microseconds since local
midnight and the offset of local time from UTC. -/
structure Datetime where
  date : Date
  microseconds : ℕ := 0
  utcOffsetSeconds : ℤ := 0
  valid : (microseconds : ℤ) < microsecondsPerDay ∧
    -86400 < utcOffsetSeconds ∧ utcOffsetSeconds < 86400 := by decide
  deriving DecidableEq

/-- `HH:MM`, with `:SS` where `seconds` says so. -/
def clockText (n : ℕ) (seconds : Bool) : String :=
  padded 2 (n / 3600) ++ ":" ++ padded 2 (n / 60 % 60) ++ if seconds then ":" ++
    padded 2 (n % 60) else ""

def Datetime.isoformat (t : Datetime) : String :=
  let offset := t.utcOffsetSeconds.natAbs
  t.date.isoformat ++ "T" ++ clockText (t.microseconds / 1000000) true ++
    (if t.microseconds % 1000000 = 0 then "" else "." ++ padded 6 (t.microseconds % 1000000)) ++
    (if t.utcOffsetSeconds < 0 then "-" else "+") ++ clockText offset (offset % 60 ≠ 0)

/-- A `datetime.datetime` that may lack an offset: `naive` is a local date and time alone. -/
inductive Moment
  | aware (t : Datetime)
  | naive (date : Date) (microseconds : ℕ) (valid : (microseconds : ℤ) < microsecondsPerDay)
  deriving DecidableEq

def Moment.isoformat : Moment → String
  | .aware t => t.isoformat
  | .naive date microseconds _ =>
    date.isoformat ++ "T" ++ clockText (microseconds / 1000000) true ++
      if microseconds % 1000000 = 0 then "" else "." ++ padded 6 (microseconds % 1000000)

def Moment.datetime : Moment → Datetime
  | .aware t => t
  | .naive date microseconds valid => { date, microseconds, valid := ⟨valid, by decide⟩ }

def Moment.date : Moment → Date
  | .aware t => t.date
  | .naive date _ _ => date

def Moment.isAware : Moment → Bool
  | .aware _ => true
  | .naive _ _ _ => false

def Datetime.midnight (date : Date) : Datetime where
  date := date

def sampleDay : Date := ⟨2026, 1, 1, by decide⟩

/-- The instant as microseconds UTC, which is what comparison and subtraction use. -/
def Datetime.instant (t : Datetime) : ℤ :=
  t.date.toOrdinal * microsecondsPerDay + t.microseconds - t.utcOffsetSeconds * 1000000

/-- The microseconds that comparison and subtraction use: of UTC, or of local time. -/
def Moment.instant (m : Moment) : ℤ := m.datetime.instant

/-- `stop - start` in microseconds. -/
def Moment.since (stop start : Moment) : Except String ℤ :=
  if stop.isAware = start.isAware then .ok (stop.instant - start.instant)
  else .error "can't subtract offset-naive and offset-aware datetimes"

def Datetime.utcDay (t : Datetime) : ℤ := t.instant / microsecondsPerDay

end AgenticSecurity.Python
