import TraceLog.Proofs.Record.Calendar
import TraceLog.Record.DateTime
import TraceLog.Record.Line

/-!
# TraceLog.Proofs.Record.DateTime

The timestamp of a record denotes its instant.

A date-time is a date that exists, a time of day, a fraction of a second and an
offset, each with its digits; `Timestamp.IsDateTime` says which texts these are
and what instants they denote.  Every such text is read as the instant that it
denotes, and the text of an instant is one of them.

* `Timestamp.IsDateTime` — the texts of instants;
* `Timestamp.IsDateTime.read?_eq` — they are read as what they denote;
* `Timestamp.Civil` — instants on the minute of a year with four digits;
* `Timestamp.Civil.isDateTime_render` — their texts are such texts;
* `Record.timestampText_denotes` — what a line says of its instant.
-/

namespace TraceLog

namespace Timestamp

/-! ## Texts of instants -/

/-- The text is a number in so many digits. -/
structure Digits (width n : Nat) (text : List Char) : Prop where
  length_eq : text.length = width
  isDigit : ∀ c ∈ text, c.isDigit = true
  value_eq : Nat.ofDigitChars 10 text 0 = n

/-- The text of a date that exists: year, month and day. -/
inductive IsDate : List Char → Date → Prop
  | intro {year month day : Nat} {first second third : List Char}
      (hyear : Digits 4 year first) (hmonth : Digits 2 month second) (hday : Digits 2 day third)
      (hvalid : (Date.mk year month day).Valid) :
      IsDate (first ++ '-' :: (second ++ '-' :: third)) ⟨year, month, day⟩

/-- The text of a second of a day: hour, minute and second. -/
inductive IsTime : List Char → Nat → Prop
  | intro {hour minute second : Nat} {first middle last : List Char}
      (hhour : Digits 2 hour first) (hminute : Digits 2 minute middle)
      (hsecond : Digits 2 second last) (hhour_lt : hour < 24) (hminute_lt : minute < 60)
      (hsecond_lt : second < 60) :
      IsTime (first ++ ':' :: (middle ++ ':' :: last)) (hour * 3600 + minute * 60 + second)

/-- The text of nanoseconds: nothing, or milliseconds, microseconds or
nanoseconds behind a point. -/
inductive IsFraction : List Char → Nat → Prop
  | none : IsFraction [] 0
  | digits {width value : Nat} {text : List Char} (hwidth : width = 3 ∨ width = 6 ∨ width = 9)
      (hdigits : Digits width value text) : IsFraction ('.' :: text) (value * 10 ^ (9 - width))

/-- The text of an offset: `Z`, or a sign with hours and minutes. -/
inductive IsOffset : List Char → Int → Prop
  | zulu : IsOffset ['Z'] 0
  | ahead {hours minutes : Nat} {first last : List Char} (hhours : Digits 2 hours first)
      (hminutes : Digits 2 minutes last) (hhours_lt : hours < 24) (hminutes_lt : minutes < 60) :
      IsOffset ('+' :: (first ++ ':' :: last)) (hours * 3600 + minutes * 60 : Nat)
  | behind {hours minutes : Nat} {first last : List Char} (hhours : Digits 2 hours first)
      (hminutes : Digits 2 minutes last) (hhours_lt : hours < 24) (hminutes_lt : minutes < 60) :
      IsOffset ('-' :: (first ++ ':' :: last)) (-(hours * 3600 + minutes * 60 : Nat))

/-- The text of an instant: what a clock at the offset shows, and the offset. -/
inductive IsDateTime : List Char → Timestamp → Prop
  | intro {date : Date} {second nanos : Nat} {offset : Int} {first middle last zone : List Char}
      (hdate : IsDate first date) (htime : IsTime middle second) (hfraction : IsFraction last nanos)
      (hoffset : IsOffset zone offset) :
      IsDateTime (first ++ 'T' :: (middle ++ (last ++ zone)))
        ⟨date.toDays * 86400 + second - offset, nanos, offset⟩

variable {width n : Nat} {text : List Char}

/-! ## Reading them -/

theorem Digits.fixedDigits?_append (h : Digits width n text) (rest : List Char) :
    fixedDigits? width (text ++ rest) = some (n, rest) := by
  obtain ⟨rfl, hdigit, rfl⟩ := h
  simpa [fixedDigits?] using hdigit

theorem behind?_cons {marks : List Char} {c : Char} (h : c ∈ marks) (cs : List Char) :
    behind? marks (c :: cs) = some cs := if_pos h

theorem IsDate.date?_append {d : Date} (h : IsDate text d) (rest : List Char) :
    date? (text ++ rest) = some (d, rest) := by
  obtain ⟨hyear, hmonth, hday, hvalid⟩ := h
  simp [date?, hyear.fixedDigits?_append, hmonth.fixedDigits?_append, hday.fixedDigits?_append,
    behind?_cons, hvalid]

/-- An offset starts with a character that belongs to no fraction. -/
theorem IsOffset.exists_head {offset : Int} (h : IsOffset text offset) :
    ∃ c cs, text = c :: cs ∧ c.isDigit = false ∧ c ≠ '.' := by
  cases h with
  | zulu => exact ⟨_, _, rfl, by decide, by decide⟩
  | ahead => exact ⟨_, _, rfl, by decide, by decide⟩
  | behind => exact ⟨_, _, rfl, by decide, by decide⟩

theorem IsFraction.fraction?_append {nanos : Nat} (h : IsFraction text nanos) {c : Char}
    (hdigit : c.isDigit = false) (hpoint : c ≠ '.') (cs : List Char) :
    fraction? (text ++ c :: cs) = some (nanos, c :: cs) := by
  cases h with
  | none =>
      rw [List.nil_append, fraction?]
      intro rest heq
      exact hpoint (List.cons.inj heq).1
  | @digits width value text hwidth hdigits =>
      obtain ⟨rfl, hall, rfl⟩ := hdigits
      have htake : (text ++ c :: cs).takeWhile Char.isDigit = text := by
        rw [List.takeWhile_append_of_pos hall]
        simp [hdigit]
      have hdrop : (text ++ c :: cs).dropWhile Char.isDigit = c :: cs := by
        rw [List.dropWhile_append_of_pos hall]
        simp [hdigit]
      have hne : text.isEmpty = false := by
        cases text with
        | nil => simp at hwidth
        | cons d ds => rfl
      have hnine : text.take 9 = text := List.take_of_length_le (by omega)
      rw [List.cons_append, fraction?]
      simp only [htake, hdrop, hne, hnine]
      simp [Nat.ofDigitChars_append, Nat.ofDigitChars_replicate_zero, Nat.mul_comm]

theorem IsTime.time?_append {second nanos : Nat} (h : IsTime text second) {fraction : List Char}
    (hfraction : IsFraction fraction nanos) {c : Char} (hdigit : c.isDigit = false)
    (hpoint : c ≠ '.') (cs : List Char) :
    time? (text ++ (fraction ++ c :: cs)) = some ((second, nanos), c :: cs) := by
  obtain ⟨hhour, hminute, hsecond, hhour_lt, hminute_lt, hsecond_lt⟩ := h
  have hrest := hfraction.fraction?_append hdigit hpoint cs
  simp [time?, hhour.fixedDigits?_append, hminute.fixedDigits?_append,
    hsecond.fixedDigits?_append, behind?_cons, hrest, hhour_lt, hminute_lt, hsecond_lt.le,
    hsecond_lt.ne]

theorem IsOffset.offset?_eq {offset : Int} (h : IsOffset text offset) :
    offset? text = some (offset, []) := by
  cases h with
  | zulu => rfl
  | ahead hhours hminutes hhours_lt hminutes_lt =>
      have hminutes' := hminutes.fixedDigits?_append []
      rw [List.append_nil] at hminutes'
      simp [offset?, behindSigns, hhours.fixedDigits?_append, hminutes', behind?_cons, hhours_lt,
        hminutes_lt]
  | behind hhours hminutes hhours_lt hminutes_lt =>
      have hminutes' := hminutes.fixedDigits?_append []
      rw [List.append_nil] at hminutes'
      simp [offset?, behindSigns, hhours.fixedDigits?_append, hminutes', behind?_cons, hhours_lt,
        hminutes_lt]

/-- **A text of an instant is read** as the instant that it denotes. -/
theorem IsDateTime.read?_eq {t : Timestamp} (h : IsDateTime text t) : read? text = some t := by
  obtain ⟨hdate, htime, hfraction, hoffset⟩ := h
  obtain ⟨c, cs, hzone, hdigit, hpoint⟩ := hoffset.exists_head
  subst hzone
  simp [read?, hdate.date?_append, behind?_cons, htime.time?_append hfraction hdigit hpoint,
    hoffset.offset?_eq]

/-! ## Writing them -/

theorem digits_padded (hwidth : 0 < width) (h : n < 10 ^ width) :
    Digits width n (padded width n) := by
  have hshort : (decimal n).length ≤ width := (Nat.length_toDigits_le_iff (by decide) hwidth).2 h
  refine ⟨?_, ?_, ?_⟩
  · simp [padded, hshort]
  · intro c hc
    rw [padded, List.mem_append, List.mem_replicate] at hc
    rcases hc with ⟨-, rfl⟩ | hdigit
    · decide
    · exact Nat.isDigit_of_mem_toDigits (by decide) (by decide) hdigit
  · rw [padded, Nat.ofDigitChars_append, Nat.ofDigitChars_replicate_zero, Nat.mul_zero]
    exact Nat.ofDigitChars_ten_toDigits

theorem isDate_renderDate {d : Date} (hvalid : d.Valid) (hyear : 0 ≤ d.year ∧ d.year ≤ 9999) :
    IsDate (renderDate d) d := by
  obtain ⟨year, month, day⟩ := d
  obtain ⟨year, rfl⟩ := Int.eq_ofNat_of_zero_le hyear.1
  have hday : day ≤ 31 := by
    refine Nat.le_trans hvalid.2.2.2 ?_
    rw [Date.daysInMonth]
    repeat' split
    all_goals omega
  have hmonth : month ≤ 12 := hvalid.2.1
  dsimp only at hyear
  rw [renderDate, renderYear, if_pos hyear]
  exact .intro (digits_padded (by decide) (by omega)) (digits_padded (by decide) (by omega))
    (digits_padded (by decide) (by omega)) hvalid

theorem isTime_renderTime {second : Nat} (h : second < 86400) :
    IsTime (renderTime second 0) second := by
  have hparts : second = second / 3600 * 3600 + second / 60 % 60 * 60 + (second % 60 + 0) := by
    omega
  have htext : IsTime (renderTime second 0) _ :=
    .intro (digits_padded (n := second / 3600) (by decide) (by omega))
      (digits_padded (n := second / 60 % 60) (by decide) (by omega))
      (digits_padded (n := second % 60 + 0) (by decide) (by omega)) (by omega) (by omega) (by omega)
  rwa [← hparts] at htext

theorem isFraction_renderFraction {nanos : Nat} (h : nanos < 1000000000) :
    IsFraction (renderFraction nanos) nanos := by
  rw [renderFraction]
  split
  · next hnone => exact hnone ▸ .none
  · split
    · next hmilli =>
        have hdigits : Digits 3 (nanos / 1000000) _ := digits_padded (by decide) (by omega)
        have htext := IsFraction.digits (.inl rfl) hdigits
        have hwhole : nanos / 1000000 * 10 ^ (9 - 3) = nanos := by omega
        rwa [hwhole] at htext
    · split
      · next hmicro =>
          have hdigits : Digits 6 (nanos / 1000) _ := digits_padded (by decide) (by omega)
          have htext := IsFraction.digits (.inr (.inl rfl)) hdigits
          have hwhole : nanos / 1000 * 10 ^ (9 - 6) = nanos := by omega
          rwa [hwhole] at htext
      · have hdigits : Digits 9 nanos _ := digits_padded (by decide) (by omega)
        have htext := IsFraction.digits (.inr (.inr rfl)) hdigits
        have hwhole : nanos * 10 ^ (9 - 9) = nanos := by omega
        rwa [hwhole] at htext

theorem isOffset_renderOffset {offset : Int} (hminutes : offset % 60 = 0)
    (h : offset.natAbs < 86400) : IsOffset (renderOffset offset) offset := by
  rw [renderOffset]
  split
  · next hzero => exact hzero ▸ .zulu
  · dsimp only
    generalize hcount : (offset.natAbs + 30) / 60 = minutes
    have hhours' : Digits 2 (minutes / 60) _ := digits_padded (by decide) (by omega)
    have hminutes' : Digits 2 (minutes % 60) _ := digits_padded (by decide) (by omega)
    split
    · have hvalue : offset = -(minutes / 60 * 3600 + minutes % 60 * 60 : Nat) := by omega
      have htext := IsOffset.behind hhours' hminutes' (by omega) (by omega)
      rwa [← hvalue] at htext
    · have hvalue : offset = (minutes / 60 * 3600 + minutes % 60 * 60 : Nat) := by omega
      have htext := IsOffset.ahead hhours' hminutes' (by omega) (by omega)
      rwa [← hvalue] at htext

/-- An instant, not within a leap second, at an offset of whole minutes where
the year has up to four digits. -/
structure Civil (t : Timestamp) : Prop where
  nanos_lt : t.nanos < 1000000000
  offset_minutes : t.offset % 60 = 0
  /-- No clock is a day ahead or behind. -/
  offset_lt : t.offset.natAbs < 86400
  year : 0 ≤ t.date.year ∧ t.date.year ≤ 9999

namespace Civil

variable {t : Timestamp}

/-- Such an instant has a text: it is less than a day away from what a clock at
the offset shows, so its year is one of the calendar, too. -/
theorem writable (h : t.Civil) : t.Writable := by
  obtain ⟨hnanos, -, hoffset, hyear⟩ := h
  have hlocal := Date.year_ofDays (t.localSeconds / 86400)
  have huniversal := Date.year_ofDays (t.seconds / 86400)
  simp only [date] at hyear
  simp only [localSeconds] at hlocal hyear
  refine ⟨⟨?_, ?_⟩, ⟨?_, ?_⟩, .inl hnanos, hoffset⟩ <;>
    simp only [universalDate, date, localSeconds, Date.firstYear, Date.lastYear, Date.cycle,
      Date.epoch] at * <;> omega

/-- **The text of such an instant** is that of a date-time that denotes it. -/
theorem isDateTime_render (h : t.Civil) : IsDateTime t.render t := by
  have hsecond : t.secondOfDay < 86400 := by
    rw [secondOfDay]
    omega
  have htext := IsDateTime.intro (isDate_renderDate (Date.valid_ofDays _) h.year)
    (isTime_renderTime hsecond) (isFraction_renderFraction h.nanos_lt)
    (isOffset_renderOffset h.offset_minutes h.offset_lt)
  have hleap : t.nanos / 1000000000 = 0 := Nat.div_eq_of_lt h.nanos_lt
  have hnanos : t.nanos % 1000000000 = t.nanos := Nat.mod_eq_of_lt h.nanos_lt
  have hinstant : (Date.ofDays (t.localSeconds / 86400)).toDays * 86400 + t.secondOfDay -
      t.offset = t.seconds := by
    rw [Date.toDays_ofDays, secondOfDay, localSeconds]
    omega
  rw [hinstant] at htext
  rw [render, hleap, hnanos]
  exact htext

end Civil

/-! ## What they are made of -/

theorem Digits.quote_notMem (h : Digits width n text) : '"' ∉ text :=
  fun hmem => absurd (h.isDigit _ hmem) (by decide)

/-- No text of an instant holds a quotation mark. -/
theorem IsDateTime.quote_notMem {t : Timestamp} (h : IsDateTime text t) : '"' ∉ text := by
  obtain ⟨hdate, htime, hfraction, hoffset⟩ := h
  have hdate' : ∀ {cs d}, IsDate cs d → '"' ∉ cs := by
    rintro cs d ⟨hyear, hmonth, hday, -⟩
    simp [hyear.quote_notMem, hmonth.quote_notMem, hday.quote_notMem]
  have htime' : ∀ {cs second}, IsTime cs second → '"' ∉ cs := by
    rintro cs second ⟨hhour, hminute, hsecond, -, -, -⟩
    simp [hhour.quote_notMem, hminute.quote_notMem, hsecond.quote_notMem]
  have hfraction' : ∀ {cs nanos}, IsFraction cs nanos → '"' ∉ cs := by
    rintro cs nanos (_ | ⟨-, hdigits⟩)
    · simp
    · simp [hdigits.quote_notMem]
  have hoffset' : ∀ {cs offset}, IsOffset cs offset → '"' ∉ cs := by
    rintro cs offset (_ | ⟨hhours, hminutes, -, -⟩ | ⟨hhours, hminutes, -, -⟩)
    · simp
    · simp [hhours.quote_notMem, hminutes.quote_notMem]
    · simp [hhours.quote_notMem, hminutes.quote_notMem]
  simp [hdate' hdate, htime' htime, hfraction' hfraction, hoffset' hoffset]

end Timestamp

namespace Record

/-- What a line starts with. -/
def opening : List Char := '{' :: Json.renderField "timestamp" ['"']

/-- The timestamp of a line: what stands between its quotation marks. -/
def timestampText (line : String) : List Char :=
  (line.toList.drop opening.length).takeWhile (· != '"')

variable {r : Record} {line : String}

/-- A line starts with the text of its instant. -/
theorem exists_toList_eq (hline : r.toLine = .ok line) :
    ∃ rest, line.toList = opening ++ (r.timestamp.render ++ '"' :: rest) := by
  rw [toLine] at hline
  split at hline
  · contradiction
  · next data _ =>
      dsimp only at hline
      split at hline
      · contradiction
      · simp only [Except.ok.injEq] at hline
        subst hline
        refine ⟨',' :: (Json.commaSeparated [Json.renderField "event_type" (Json.quote r.kind.name),
          Json.renderField "component" (Json.quote component), Json.renderField "data" data] ++
            ['}']), ?_⟩
        rw [String.toList_ofList, envelope, Json.enclose, Json.commaSeparated, opening]
        · simp [Json.renderField]
        · simp

/-- The timestamp of a line is the text of the instant. -/
theorem timestampText_eq (hcivil : r.timestamp.Civil) (hline : r.toLine = .ok line) :
    timestampText line = r.timestamp.render := by
  obtain ⟨rest, htext⟩ := exists_toList_eq hline
  have hquote := hcivil.isDateTime_render.quote_notMem
  have hinside : ∀ c ∈ r.timestamp.render, (c != '"') = true := by
    intro c hc
    rw [bne_iff_ne]
    rintro rfl
    exact hquote hc
  rw [timestampText, htext, List.drop_left, List.takeWhile_append_of_pos hinside]
  simp

/-- **The timestamp of a record denotes its instant.**  Let the instant be
given to the nanosecond at an offset of whole minutes, in a year of up to four
digits.  Then it has a text; every line of the record starts with it, the text is a
date-time that denotes the instant, and it is read as just that instant and
offset.  So lines of different instants or offsets do not share it. -/
theorem timestampText_denotes (hcivil : r.timestamp.Civil) :
    r.toLine? = some r.toLine ∧ ∀ line, r.toLine = .ok line →
      (∃ rest, line.toList = opening ++ (timestampText line ++ '"' :: rest)) ∧
      Timestamp.IsDateTime (timestampText line) r.timestamp ∧
      Timestamp.read? (timestampText line) = some r.timestamp ∧
      ∀ (r' : Record) (line' : String), r'.timestamp.Civil → r'.toLine = .ok line' →
        timestampText line' = timestampText line → r'.timestamp = r.timestamp := by
  have hdenotes := hcivil.isDateTime_render
  refine ⟨if_pos hcivil.writable, fun line hline => ?_⟩
  rw [timestampText_eq hcivil hline]
  refine ⟨exists_toList_eq hline, hdenotes, hdenotes.read?_eq, ?_⟩
  intro r' line' hcivil' hline' hsame
  rw [timestampText_eq hcivil' hline'] at hsame
  have hread := hcivil'.isDateTime_render.read?_eq
  rw [hsame, hdenotes.read?_eq, Option.some.injEq] at hread
  exact hread.symm

/-- Half a second before 1970 in universal time, where clocks are five and a
half hours ahead. -/
theorem timestampText_denotes_of_new_year :
    let r : Record := .wait ⟨-1, 500000000, 19800⟩ ⟨"w", [], none⟩
    r.timestamp.Civil ∧ ∃ line, r.toLine = .ok line ∧
      timestampText line = "1970-01-01T05:29:59.500+05:30".toList ∧
      Timestamp.read? "1970-01-01T05:29:59.500+05:30".toList = some ⟨-1, 500000000, 19800⟩ := by
  intro r
  have hcivil : r.timestamp.Civil := ⟨by decide, by decide, by decide, by decide⟩
  obtain ⟨line, hline⟩ : ∃ line, r.toLine = .ok line := by
    have hok : r.toLine.isOk = true := by decide +kernel
    cases hline : r.toLine with
    | ok line => exact ⟨line, rfl⟩
    | error failure => simp [hline, Except.isOk, Except.toBool] at hok
  obtain ⟨-, hdenotes⟩ := timestampText_denotes hcivil
  obtain ⟨-, -, hread, -⟩ := hdenotes line hline
  have htext : timestampText line = "1970-01-01T05:29:59.500+05:30".toList := by
    rw [timestampText_eq hcivil hline]
    decide
  rw [htext] at hread
  exact ⟨hcivil, line, hline, htext, hread⟩

end Record

end TraceLog
