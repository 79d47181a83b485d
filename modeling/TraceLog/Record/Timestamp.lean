import TraceLog.Number.Format
import TraceLog.Record.Calendar

/-!
# TraceLog.Record.Timestamp

Instants with an offset from universal time, and their text.

The text is the date and time local to the offset, a fraction of 0, 3, 6 or 9
digits (the fewest that lose nothing), and the offset in hours and minutes, or
`Z` for none.  Years outside 0 to 9999 carry a sign.

`Timestamp.Writable` says which instants have a text: those whose date is in
the calendar, in universal time and at the offset.
-/

namespace TraceLog

/-- An instant with an offset. -/
structure Timestamp where
  /-- Seconds since 1 January 1970 in universal time. -/
  seconds : Int
  /-- Nanoseconds within the second; a leap second is the second before it with
  a billion or more. -/
  nanos : Nat
  /-- Seconds that local time is ahead of universal time. -/
  offset : Int
  deriving DecidableEq, Repr, Inhabited

/-- The digits of a number, with zeros in front up to `width`. -/
def padded (width n : Nat) : List Char :=
  List.replicate (width - (decimal n).length) '0' ++ decimal n

namespace Timestamp

/-- The seconds that a clock at the offset shows. -/
def localSeconds (t : Timestamp) : Int := t.seconds + t.offset

/-- The date that a clock at the offset shows. -/
def date (t : Timestamp) : Date := Date.ofDays (t.localSeconds / 86400)

/-- The date in universal time. -/
def universalDate (t : Timestamp) : Date := Date.ofDays (t.seconds / 86400)

/-- A leap second comes last in its minute and is over after a second. -/
def LeapInPlace (t : Timestamp) : Prop :=
  t.nanos < 1000000000 ∨ t.nanos < 2000000000 ∧ t.seconds % 60 = 59

instance (t : Timestamp) : Decidable t.LeapInPlace :=
  inferInstanceAs (Decidable (t.nanos < 1000000000 ∨ t.nanos < 2000000000 ∧ t.seconds % 60 = 59))

/-- The instant is one of the calendar, and so is what a clock at the offset
shows; the offset is less than a day. -/
def Writable (t : Timestamp) : Prop :=
  t.universalDate.InReach ∧ t.date.InReach ∧ t.LeapInPlace ∧ t.offset.natAbs < 86400

instance (t : Timestamp) : Decidable t.Writable :=
  inferInstanceAs (Decidable (t.universalDate.InReach ∧ t.date.InReach ∧ t.LeapInPlace ∧
    t.offset.natAbs < 86400))

/-- The second of the day that a clock at the offset shows. -/
def secondOfDay (t : Timestamp) : Nat := (t.localSeconds % 86400).toNat

/-- A year: four digits, or a sign and at least four digits. -/
def renderYear (year : Int) : List Char :=
  if 0 ≤ year ∧ year ≤ 9999 then padded 4 year.toNat
  else (if year < 0 then '-' else '+') :: padded 4 year.natAbs

/-- A date. -/
def renderDate (d : Date) : List Char :=
  renderYear d.year ++ '-' :: (padded 2 d.month ++ '-' :: padded 2 d.day)

/-- A time of day, and the seconds that a leap second adds. -/
def renderTime (second leap : Nat) : List Char :=
  padded 2 (second / 3600) ++ ':' ::
    (padded 2 (second / 60 % 60) ++ ':' :: padded 2 (second % 60 + leap))

/-- A fraction of a second. -/
def renderFraction (nanos : Nat) : List Char :=
  if nanos = 0 then []
  else if nanos % 1000000 = 0 then '.' :: padded 3 (nanos / 1000000)
  else if nanos % 1000 = 0 then '.' :: padded 6 (nanos / 1000)
  else '.' :: padded 9 nanos

/-- An offset, rounded to the nearest minute. -/
def renderOffset (offset : Int) : List Char :=
  if offset = 0 then ['Z']
  else
    let minutes := (offset.natAbs + 30) / 60
    (if offset < 0 then '-' else '+') :: (padded 2 (minutes / 60) ++ ':' :: padded 2 (minutes % 60))

/-- The text of an instant. -/
def render (t : Timestamp) : List Char :=
  renderDate t.date ++
    'T' :: (renderTime t.secondOfDay (t.nanos / 1000000000) ++
      (renderFraction (t.nanos % 1000000000) ++ renderOffset t.offset))

end Timestamp

end TraceLog
