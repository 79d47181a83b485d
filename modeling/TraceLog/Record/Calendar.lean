/-!
# TraceLog.Record.Calendar

Dates of the proleptic Gregorian calendar.

Days count from 1 January 1970.  Inside, a year starts on 1 March, so that the
day a leap year adds is its last one: a cycle of 400 years then splits into
four centuries, a century into twenty-five spans of four years, and a span
into four years, where only the last part of each may be a day longer or
shorter.

* `Date.ofDays` — the date of a day;
* `Date.toDays` — the day of a date;
* `Date.Valid` — the month and the day exist;
* `Date.InReach` — the year is one of the calendar.
-/

namespace TraceLog

/-- A date of the Gregorian calendar. -/
structure Date where
  year : Int
  month : Nat
  day : Nat
  deriving DecidableEq, Repr

namespace Date

/-- Whether the year has 366 days. -/
def isLeap (year : Int) : Bool :=
  decide (year % 4 = 0) && (!decide (year % 100 = 0) || decide (year % 400 = 0))

/-- The number of days of a month. -/
def daysInMonth (year : Int) (month : Nat) : Nat :=
  if month = 2 then (if isLeap year then 29 else 28)
  else if month = 4 ∨ month = 6 ∨ month = 9 ∨ month = 11 then 30
  else 31

/-- The month is one of the twelve, and the day is one of the month. -/
def Valid (d : Date) : Prop :=
  1 ≤ d.month ∧ d.month ≤ 12 ∧ 1 ≤ d.day ∧ d.day ≤ daysInMonth d.year d.month

instance (d : Date) : Decidable d.Valid :=
  inferInstanceAs (Decidable (1 ≤ d.month ∧ d.month ≤ 12 ∧ 1 ≤ d.day ∧
    d.day ≤ daysInMonth d.year d.month))

/-- The first year of the calendar. -/
def firstYear : Int := -262143

/-- The last year of the calendar. -/
def lastYear : Int := 262142

/-- The year is one of the calendar. -/
def InReach (d : Date) : Prop := firstYear ≤ d.year ∧ d.year ≤ lastYear

instance (d : Date) : Decidable d.InReach :=
  inferInstanceAs (Decidable (firstYear ≤ d.year ∧ d.year ≤ lastYear))

/-- The number of days in 400 years. -/
def cycle : Nat := 146097

/-- Days from 1 March of year 0 to 1 January 1970. -/
def epoch : Int := 719468

/-- The year within a cycle, counted from March, and the day within it. -/
def yearOfCycle (day : Nat) : Nat × Nat :=
  let century := min (day / 36524) 3
  let day := day - century * 36524
  let span := day / 1461
  let day := day - span * 1461
  let year := min (day / 365) 3
  (century * 100 + span * 4 + year, day - year * 365)

/-- The date of a day. -/
def ofDays (days : Int) : Date :=
  let shifted := days + epoch
  let (year, day) := yearOfCycle (shifted % cycle).toNat
  let month := (5 * day + 2) / 153
  let dayOfMonth := day - (153 * month + 2) / 5 + 1
  let year : Int := year + 400 * (shifted / cycle)
  if month < 10 then ⟨year, month + 3, dayOfMonth⟩ else ⟨year + 1, month - 9, dayOfMonth⟩

/-- The day of a date. -/
def toDays (d : Date) : Int :=
  let (year, month) : Int × Nat :=
    if 3 ≤ d.month then (d.year, d.month - 3) else (d.year - 1, d.month + 9)
  let inCycle := (year % 400).toNat
  let day := inCycle * 365 + inCycle / 4 - inCycle / 100 + (153 * month + 2) / 5 + d.day - 1
  year / 400 * cycle + day - epoch

end Date

end TraceLog
