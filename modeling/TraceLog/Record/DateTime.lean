import TraceLog.Record.Timestamp

/-!
# TraceLog.Record.DateTime

Reading the text of an instant.

A date-time is a date, a time of day with an optional fraction, and an offset:
`Z`, or a sign with hours and minutes.  The letters may be small, a blank may
stand between date and time, and the sign may be a hyphen or a true minus.  The
date has to exist; second `60` is the leap second, which counts as the second
before it with a fraction of one second or more.
-/

namespace TraceLog.Timestamp

/-- So many digits, as a number. -/
def fixedDigits? (n : Nat) (cs : List Char) : Option (Nat × List Char) :=
  let digits := cs.take n
  if digits.length = n ∧ digits.all Char.isDigit then
    some (Nat.ofDigitChars 10 digits 0, cs.drop n)
  else none

/-- The text behind one of some characters. -/
def behind? (marks : List Char) : List Char → Option (List Char)
  | [] => none
  | c :: cs => if c ∈ marks then some cs else none

/-- A fraction of a second in nanoseconds; digits beyond the ninth are of no
account. -/
def fraction? : List Char → Option (Nat × List Char)
  | '.' :: cs =>
    let digits := cs.takeWhile Char.isDigit
    if digits.isEmpty then none
    else
      let nine := digits.take 9 ++ List.replicate (9 - digits.length) '0'
      some (Nat.ofDigitChars 10 nine 0, cs.dropWhile Char.isDigit)
  | cs => some (0, cs)

/-- The signs of an offset behind universal time: the hyphen and the minus. -/
def behindSigns : List Char := ['-', '\u2212']

/-- An offset in seconds. -/
def offset? : List Char → Option (Int × List Char)
  | [] => none
  | sign :: cs =>
    if sign = 'Z' ∨ sign = 'z' then some (0, cs)
    else if sign = '+' ∨ sign ∈ behindSigns then do
      let (hours, cs) ← fixedDigits? 2 cs
      let cs ← behind? [':'] cs
      let (minutes, cs) ← fixedDigits? 2 cs
      if hours < 24 ∧ minutes < 60 then
        let seconds : Int := hours * 3600 + minutes * 60
        some (if sign ∈ behindSigns then -seconds else seconds, cs)
      else none
    else none

/-- A date that exists. -/
def date? (cs : List Char) : Option (Date × List Char) := do
  let (year, cs) ← fixedDigits? 4 cs
  let cs ← behind? ['-'] cs
  let (month, cs) ← fixedDigits? 2 cs
  let cs ← behind? ['-'] cs
  let (day, cs) ← fixedDigits? 2 cs
  let date : Date := ⟨year, month, day⟩
  if date.Valid then some (date, cs) else none

/-- A time of day: seconds since midnight, and nanoseconds. -/
def time? (cs : List Char) : Option ((Nat × Nat) × List Char) := do
  let (hour, cs) ← fixedDigits? 2 cs
  let cs ← behind? [':'] cs
  let (minute, cs) ← fixedDigits? 2 cs
  let cs ← behind? [':'] cs
  let (second, cs) ← fixedDigits? 2 cs
  let (nanos, cs) ← fraction? cs
  if hour < 24 ∧ minute < 60 ∧ second ≤ 60 then
    let start := hour * 3600 + minute * 60
    if second = 60 then some ((start + 59, nanos + 1000000000), cs)
    else some ((start + second, nanos), cs)
  else none

/-- Reads the text of an instant. -/
def read? (cs : List Char) : Option Timestamp := do
  let (date, cs) ← date? cs
  let cs ← behind? ['T', 't', ' '] cs
  let ((second, nanos), cs) ← time? cs
  let (offset, cs) ← offset? cs
  if cs.isEmpty then some ⟨date.toDays * 86400 + second - offset, nanos, offset⟩ else none

end TraceLog.Timestamp
