import Mathlib.Tactic.IntervalCases
import TraceLog.Record.Calendar

/-!
# TraceLog.Proofs.Record.Calendar

Days and dates of the Gregorian calendar.

The days of the calendar are counted one after the other: the day after a date
is the day of the next date, over the ends of months and years, and the count
starts on 1 January 1970.

* `Date.next` — the date that follows;
* `Date.toDays_next` — it is one day later;
* `Date.valid_ofDays` and `Date.toDays_ofDays` — every day has a date, and is
  the day of that date;
* `Date.year_ofDays` — the cycle that the year of a day is in.
-/

namespace TraceLog

namespace Date

variable {d : Date}

/-! ## Counting days -/

/-- A year has 366 days every fourth year, but not every hundredth one unless
it is a four hundredth one. -/
theorem isLeap_iff (year : Int) :
    isLeap year = true ↔ year % 4 = 0 ∧ (year % 100 ≠ 0 ∨ year % 400 = 0) := by
  simp [isLeap]

/-- The date that follows. -/
def next (d : Date) : Date :=
  if d.day < daysInMonth d.year d.month then ⟨d.year, d.month, d.day + 1⟩
  else if d.month < 12 then ⟨d.year, d.month + 1, 1⟩
  else ⟨d.year + 1, 1, 1⟩

/-- The first day of the count. -/
theorem toDays_epoch : toDays ⟨1970, 1, 1⟩ = 0 := by decide

theorem valid_mk_iff {year : Int} {month day : Nat} :
    (Date.mk year month day).Valid ↔
      1 ≤ month ∧ month ≤ 12 ∧ 1 ≤ day ∧ day ≤ daysInMonth year month := Iff.rfl

theorem one_le_daysInMonth (year : Int) (month : Nat) : 1 ≤ daysInMonth year month := by
  rw [daysInMonth]
  repeat' split
  all_goals omega

/-- What follows a date that exists is a date that exists. -/
theorem Valid.next (h : d.Valid) : d.next.Valid := by
  obtain ⟨year, month, day⟩ := d
  rw [valid_mk_iff] at h
  simp only [Date.next]
  split
  · rw [valid_mk_iff]
    omega
  · split
    · have hlong := one_le_daysInMonth year (month + 1)
      rw [valid_mk_iff]
      omega
    · have hlong := one_le_daysInMonth (year + 1) 1
      rw [valid_mk_iff]
      omega

/-- **The next date is one day later.** -/
theorem toDays_next (h : d.Valid) : d.next.toDays = d.toDays + 1 := by
  obtain ⟨year, month, day⟩ := d
  obtain ⟨hmonth, hmonth', hday, hday'⟩ := valid_mk_iff.1 h
  simp only [Date.next]
  split
  · -- Within a month only the day changes.
    simp only [toDays]
    split <;> omega
  · next hlast =>
      have hleap := isLeap_iff year
      have hend : day = daysInMonth year month := by omega
      -- From month to month the start of the month changes, and at the end of February the year
      -- of the count does, too.
      by_cases hfebruary : month = 2
      · subst hfebruary
        rw [daysInMonth, if_pos rfl] at hend
        by_cases hlong : isLeap year = true
        · rw [if_pos hlong] at hend
          rw [hleap] at hlong
          simp [toDays, cycle]
          omega
        · rw [if_neg hlong] at hend
          rw [hleap] at hlong
          simp [toDays, cycle]
          omega
      · rw [daysInMonth, if_neg hfebruary] at hend
        interval_cases month <;> simp at hfebruary hend ⊢ <;> simp [toDays] <;> omega

/-! ## The date of a day -/

/-- A cycle splits into years from March on, of which only those that a leap
year ends have 366 days. -/
theorem yearOfCycle_spec {day : Nat} (h : day < cycle) :
    (yearOfCycle day).1 < 400 ∧ (yearOfCycle day).2 ≤ 365 ∧
      day = (yearOfCycle day).1 * 365 + (yearOfCycle day).1 / 4 - (yearOfCycle day).1 / 100 +
        (yearOfCycle day).2 ∧
      ((yearOfCycle day).2 = 365 → isLeap ((yearOfCycle day).1 + 1) = true) := by
  simp only [cycle] at h
  simp only [yearOfCycle, isLeap_iff]
  generalize hcentury : min (day / 36524) 3 = century
  generalize hspan : (day - century * 36524) / 1461 = span
  generalize hyear : min ((day - century * 36524 - span * 1461) / 365) 3 = year
  have hfourth : (century * 100 + span * 4 + year) / 4 = century * 25 + span := by omega
  have hhundredth : (century * 100 + span * 4 + year) / 100 = century := by omega
  refine ⟨by omega, by omega, by omega, fun hlast => ?_⟩
  -- The day a leap year adds comes last in a span, and in the last span of a century only in the
  -- last century.
  omega

/-- A year from March on splits into months. -/
theorem month_spec {day month : Nat} (h : day ≤ 365) (hmonth : (5 * day + 2) / 153 = month) :
    month ≤ 11 ∧ (153 * month + 2) / 5 ≤ day ∧ day - (153 * month + 2) / 5 < 31 ∧
      (month = 1 ∨ month = 3 ∨ month = 6 ∨ month = 8 → day - (153 * month + 2) / 5 < 30) ∧
      (month = 11 → day - (153 * month + 2) / 5 < 29) := by
  omega

/-- **Every day has a date that exists.** -/
theorem valid_ofDays (n : Int) : (ofDays n).Valid := by
  have hday : ((n + epoch) % cycle).toNat < cycle := by
    simp only [cycle]
    omega
  obtain ⟨-, hlast, -, hleap⟩ := yearOfCycle_spec hday
  simp only [ofDays]
  generalize yearOfCycle ((n + epoch) % cycle).toNat = split at hlast hleap
  obtain ⟨year, day⟩ := split
  dsimp only at hlast hleap ⊢
  generalize hmonth : (5 * day + 2) / 153 = month
  obtain ⟨hmonths, hstart, hlong, hshort, hfebruary⟩ := month_spec hlast hmonth
  by_cases hbefore : month < 10
  · rw [if_pos hbefore, valid_mk_iff]
    refine ⟨by omega, by omega, by omega, ?_⟩
    rw [daysInMonth, if_neg (by omega)]
    split <;> omega
  · rw [if_neg hbefore, valid_mk_iff]
    refine ⟨by omega, by omega, by omega, ?_⟩
    rw [daysInMonth]
    split
    · -- February has its 29th day exactly if the day is the one that a leap year adds.
      split
      · have hend := hfebruary (by omega)
        omega
      · next hfebruary' hshort' =>
          have hcommon : day ≠ 365 := by
            intro hadded
            have hadded' := hleap hadded
            rw [isLeap_iff] at hadded' hshort'
            omega
          omega
    · split <;> omega

/-- **Every day is the day of its date.** -/
theorem toDays_ofDays (n : Int) : (ofDays n).toDays = n := by
  have hday : ((n + epoch) % cycle).toNat < cycle := by
    simp only [cycle]
    omega
  obtain ⟨hyear, hlast, hsum, -⟩ := yearOfCycle_spec hday
  simp only [ofDays]
  generalize hsplit : yearOfCycle ((n + epoch) % cycle).toNat = split at hyear hlast hsum
  obtain ⟨year, day⟩ := split
  dsimp only at hyear hlast hsum ⊢
  generalize hmonth : (5 * day + 2) / 153 = month
  obtain ⟨hmonths, hstart, -⟩ := month_spec hlast hmonth
  have hrest : (year : Int) = (year + 400 * ((n + epoch) / cycle)) % 400 := by omega
  have hcycle : (year + 400 * ((n + epoch) / cycle)) / 400 = (n + epoch) / cycle := by omega
  have hshifted := Int.mul_ediv_add_emod (n + epoch) cycle
  by_cases hbefore : month < 10
  · rw [if_pos hbefore]
    simp only [toDays]
    rw [if_pos (by omega)]
    simp only [hcycle, ← hrest, Int.toNat_natCast, Nat.add_sub_cancel]
    simp only [cycle] at hsum hshifted ⊢
    omega
  · rw [if_neg hbefore]
    simp only [toDays]
    rw [if_neg (by omega)]
    simp only [Int.add_sub_cancel, hcycle, ← hrest, Int.toNat_natCast]
    simp only [cycle] at hsum hshifted ⊢
    omega

/-- The year of a day is one of its cycle, or the first of the next one. -/
theorem year_ofDays (n : Int) :
    400 * ((n + epoch) / cycle) ≤ (ofDays n).year ∧
      (ofDays n).year ≤ 400 * ((n + epoch) / cycle) + 400 := by
  have hday : ((n + epoch) % cycle).toNat < cycle := by
    simp only [cycle]
    omega
  obtain ⟨hyear, -⟩ := yearOfCycle_spec hday
  simp only [ofDays]
  generalize (n + epoch) / cycle = number
  split
  · dsimp only
    omega
  · dsimp only
    omega

end Date

end TraceLog
