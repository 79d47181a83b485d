import TraceLog.Json.Render
import TraceLog.Json.Scan
import TraceLog.Proofs.Number.Shortest

/-!
# TraceLog.Proofs.Json.Numbers

Numbers read back from their texts.

A number is spelled by digits, with a fraction behind a point and an exponent
behind its mark where there are any.  The reader takes exactly these from the
front of a text, provided that what follows does not go on with the number.
The notation of a floating-point number is such a spelling of a decimal with
the value of the shortest one, so it is read as the number itself, provided that
the reader takes the nearest number.

* `Json.Spelling` — the parts of the text of a number;
* `Json.Reader.number_spelling` — a spelling is read as the decimal it spells;
* `Json.exists_spells` — digits in the notation of the trace file;
* `Json.SpellsNumber` — the spelling of a floating-point number;
* `Number.ReadAs` — the number that the text of a number is read as;
* `Number.Legible` — the numbers that are read as they were written.
-/

namespace TraceLog

/-! ## Digits -/

theorem isDigit_of_mem_decimal {n : Nat} {c : Char} (h : c ∈ decimal n) : c.isDigit = true :=
  Nat.isDigit_of_mem_toDigits (by decide) (by decide) h

theorem decimal_ne_nil (n : Nat) : decimal n ≠ [] := Nat.toDigits_ne_nil

/-- No digits of a number other than zero begin with a zero. -/
theorem head?_decimal_ne {n : Nat} (h : n ≠ 0) : (decimal n).head? ≠ some '0' := by
  induction n using Nat.strong_induction_on with
  | _ n ih =>
      by_cases hsmall : n < 10
      · rw [decimal, Nat.toDigits_of_lt_base hsmall]
        simpa using h
      · have hsplit : decimal n = decimal (n / 10) ++ [(n % 10).digitChar] :=
          Nat.toDigits_of_base_le (by decide) (by omega)
        rw [hsplit, List.head?_append_of_ne_nil _ (decimal_ne_nil _)]
        exact ih (n / 10) (by omega) (by omega)

namespace Json

/-! ## Spellings -/

/-- The parts of the text of a number: the digits before the point, those
behind it, and the sign and the digits of the exponent. -/
structure Spelling where
  whole : List Char
  fraction : Option (List Char)
  exponent : Option (Bool × List Char)

namespace Spelling

/-- One digit or more. -/
def SomeDigits (ds : List Char) : Prop := ds ≠ [] ∧ ∀ c ∈ ds, c.isDigit = true

/-- All parts are digits, and a zero in front stands alone. -/
structure Proper (s : Spelling) : Prop where
  whole : SomeDigits s.whole
  zero_alone : s.whole.head? = some '0' → s.whole = ['0']
  fraction : ∀ ds ∈ s.fraction, SomeDigits ds
  exponent : ∀ e ∈ s.exponent, SomeDigits e.2

/-- The text of the fraction. -/
def fractionText (s : Spelling) : List Char :=
  match s.fraction with
  | none => []
  | some ds => '.' :: ds

/-- The text of the exponent. -/
def exponentText (s : Spelling) : List Char :=
  match s.exponent with
  | none => []
  | some (negative, ds) => 'e' :: (if negative then '-' else '+') :: ds

/-- The text of the number. -/
def text (s : Spelling) : List Char := s.whole ++ (s.fractionText ++ s.exponentText)

/-- The exponent that is spelled. -/
def exponentValue (s : Spelling) : Int :=
  match s.exponent with
  | none => 0
  | some (negative, ds) =>
    if negative then -(Nat.ofDigitChars 10 ds 0 : Int) else Nat.ofDigitChars 10 ds 0

/-- The decimal that is spelled. -/
def decimal (s : Spelling) : Decimal :=
  ⟨Nat.ofDigitChars 10 (s.whole ++ s.fraction.getD []) 0,
    s.exponentValue - (s.fraction.getD []).length⟩

/-- Whether the text is that of a floating-point number. -/
def isFloat (s : Spelling) : Bool := s.fraction.isSome || s.exponent.isSome

end Spelling

namespace Reader

open Spelling (SomeDigits)

/-- What does not go on with digits. -/
def NoDigit (rest : List Char) : Prop := ∀ c ∈ rest.head?, c.isDigit = false

/-- What does not go on with a number. -/
def EndsNumber (rest : List Char) : Prop :=
  ∀ c ∈ rest.head?, c.isDigit = false ∧ c ≠ '.' ∧ c ≠ 'e' ∧ c ≠ 'E'

theorem EndsNumber.noDigit {rest : List Char} (h : EndsNumber rest) : NoDigit rest :=
  fun c hc => (h c hc).1

/-- Digits are taken up to where they end. -/
theorem digits_append {ds rest : List Char} (hds : ∀ c ∈ ds, c.isDigit = true)
    (hrest : NoDigit rest) : digits (ds ++ rest) = (ds, rest) := by
  rw [digits, List.takeWhile_append_of_pos hds, List.dropWhile_append_of_pos hds]
  cases rest with
  | nil => simp
  | cons c rest =>
      have hc : c.isDigit = false := hrest c (by simp)
      simp [hc]

theorem someDigits_append {ds rest : List Char} (hds : SomeDigits ds) (hrest : NoDigit rest) :
    someDigits (ds ++ rest) = .ok (ds, rest) := by
  obtain ⟨c, cs, rfl⟩ := List.exists_cons_of_ne_nil hds.1
  have hc : c.isDigit = true := hds.2 c List.mem_cons_self
  have hdigits := digits_append hds.2 hrest
  rw [List.cons_append] at hdigits ⊢
  rw [someDigits, if_pos hc, hdigits]

theorem wholeDigits_append {ds rest : List Char} (hds : SomeDigits ds)
    (hzero : ds.head? = some '0' → ds = ['0']) (hrest : NoDigit rest) :
    wholeDigits (ds ++ rest) = .ok (ds, rest) := by
  by_cases halone : ds = ['0']
  · subst halone
    cases rest with
    | nil => rfl
    | cons c rest =>
        have hc : c.isDigit = false := hrest c (by simp)
        simp [wholeDigits, hc]
  · obtain ⟨c, cs, rfl⟩ := List.exists_cons_of_ne_nil hds.1
    have hc : c ≠ '0' := by
      rintro rfl
      exact halone (hzero rfl)
    have hsome := someDigits_append hds hrest
    rw [List.cons_append] at hsome ⊢
    unfold wholeDigits
    split
    · contradiction
    · next heq =>
        rw [List.cons.injEq] at heq
        exact absurd heq.1 hc
    · exact hsome

/-- The fraction is taken if there is a point. -/
theorem fractionDigits_append (s : Spelling) (hs : s.Proper) {rest : List Char}
    (hdigit : NoDigit rest) (hpoint : ∀ c ∈ rest.head?, c ≠ '.') :
    fractionDigits (s.fractionText ++ rest) = .ok (s.fraction.getD [], rest) := by
  have hfraction := hs.fraction
  rw [Spelling.fractionText]
  cases hfound : s.fraction with
  | none =>
      simp only [List.nil_append, Option.getD_none]
      unfold fractionDigits
      split
      · exact absurd rfl (hpoint '.' rfl)
      · rfl
  | some ds =>
      rw [List.cons_append, fractionDigits, Option.getD_some]
      exact someDigits_append (hfraction ds hfound) hdigit

/-- The exponent is taken with its sign. -/
theorem exponentValue_append (negative : Bool) {ds rest : List Char} (hds : SomeDigits ds)
    (hrest : NoDigit rest) :
    exponentValue ((if negative then '-' else '+') :: ds ++ rest) =
      .ok (if negative then -(Nat.ofDigitChars 10 ds 0 : Int) else Nat.ofDigitChars 10 ds 0,
        rest) := by
  have hsome := someDigits_append hds hrest
  cases negative <;> simp [exponentValue, hsome, bind, Except.bind]

/-- The value of a number with these parts, if it is in range. -/
def spelledValue (p : Precision) (negative : Bool) (s : Spelling) : Option Number :=
  if s.isFloat then floatNumber p negative s.whole (s.fraction.getD []) s.exponentValue
  else integerNumber p negative s.whole

/-- What comes behind the digits of a spelling does not go on with them. -/
theorem noDigit_exponentText (s : Spelling) {rest : List Char} (hrest : EndsNumber rest) :
    NoDigit (s.exponentText ++ rest) ∧ ∀ c ∈ (s.exponentText ++ rest).head?, c ≠ '.' := by
  rw [Spelling.exponentText]
  cases s.exponent with
  | none => exact ⟨hrest.noDigit, fun c hc => (hrest c hc).2.1⟩
  | some e => simp [NoDigit]

theorem noDigit_fractionText (s : Spelling) {tail : List Char} (htail : NoDigit tail) :
    NoDigit (s.fractionText ++ tail) := by
  rw [Spelling.fractionText]
  cases s.fraction with
  | none => exact htail
  | some ds => simp [NoDigit]

/-- A point stands behind the whole digits exactly if there is a fraction. -/
theorem head?_fractionText (s : Spelling) {tail : List Char} (htail : ∀ c ∈ tail.head?, c ≠ '.') :
    ((s.fractionText ++ tail).head? == some '.') = s.fraction.isSome := by
  rw [Spelling.fractionText]
  cases s.fraction with
  | none =>
      cases tail with
      | nil => rfl
      | cons c tail =>
          have hc : c ≠ '.' := htail c rfl
          simp [hc]
  | some ds => rfl

/-- **A spelling is read as what it spells.** -/
theorem number_spelling {s : Spelling} (hs : s.Proper) (p : Precision) (negative : Bool)
    {rest : List Char} (hrest : EndsNumber rest) :
    number p ((if negative then ['-'] else []) ++ (s.text ++ rest)) =
      (spelledValue p negative s).elim (.error .malformed) fun value => .ok (value, rest) := by
  obtain ⟨htailDigit, htailPoint⟩ := noDigit_exponentText s hrest
  have hfraction := fractionDigits_append s hs htailDigit htailPoint
  have hwhole := wholeDigits_append hs.whole hs.zero_alone (noDigit_fractionText s htailDigit)
  have hpoint := head?_fractionText s htailPoint
  have htext : s.text ++ rest = s.whole ++ (s.fractionText ++ (s.exponentText ++ rest)) := by
    simp [Spelling.text]
  have hexponent := hs.exponent
  rw [spelledValue, Spelling.isFloat, Spelling.exponentValue]
  unfold number
  split
  rename_i sign cs hsplit
  obtain ⟨rfl, rfl⟩ : sign = negative ∧ cs = s.text ++ rest := by
    cases negative with
    | true =>
        cases hsplit
        exact ⟨rfl, rfl⟩
    | false =>
        obtain ⟨c, others, hc⟩ := List.exists_cons_of_ne_nil hs.whole.1
        have hdigit : c.isDigit = true := hs.whole.2 c (by simp [hc])
        simp only [Bool.false_eq_true, if_false, List.nil_append, htext, hc,
          List.cons_append] at hsplit ⊢
        split at hsplit
        · next heq =>
            rw [List.cons.injEq] at heq
            rw [heq.1] at hdigit
            contradiction
        · cases hsplit
          exact ⟨rfl, rfl⟩
  simp only [htext, hwhole, hpoint, hfraction, bind, Except.bind]
  rw [Spelling.exponentText]
  cases hfound : s.exponent with
  | none =>
      simp only [List.nil_append]
      split
      · exact absurd rfl (hrest 'e' rfl).2.2.1
      · exact absurd rfl (hrest 'E' rfl).2.2.2
      · simp only [pure, Except.pure, Option.isSome_none, Option.getD_none]
        split <;> simp_all
  | some e =>
      obtain ⟨minus, ds⟩ := e
      have htaken := exponentValue_append minus (hexponent _ hfound) hrest.noDigit
      simp only [List.cons_append] at htaken ⊢
      simp only [htaken, pure, Except.pure, Option.isSome_some, Option.getD_some]
      split <;> simp_all

end Reader

/-! ## The notation of the trace file -/

open NumberFormat (data)
open Spelling (SomeDigits)

theorem someDigits_decimal (n : Nat) : SomeDigits (decimal n) :=
  ⟨decimal_ne_nil n, fun _ hc => isDigit_of_mem_decimal hc⟩

theorem ofDigitChars_decimal (n : Nat) : Nat.ofDigitChars 10 (decimal n) 0 = n :=
  Nat.ofDigitChars_ten_toDigits

/-- A spelling of digits whose leading one has this exponent. -/
structure Spells (s : Spelling) (digits : List Char) (lead : Int) : Prop where
  proper : s.Proper
  isFloat : s.isFloat = true
  text : s.text = data.layout digits lead
  value : s.decimal.value =
    (Nat.ofDigitChars 10 digits 0 : ℚ) * 10 ^ (lead + 1 - digits.length)

/-- Zeros are digits. -/
theorem isDigit_of_mem_replicate {n : Nat} {c : Char} (h : c ∈ List.replicate n '0') :
    c.isDigit = true := by
  rw [List.eq_of_mem_replicate h]
  rfl

theorem ofDigitChars_zeros_append (n : Nat) (digits : List Char) :
    Nat.ofDigitChars 10 (List.replicate n '0' ++ digits) 0 = Nat.ofDigitChars 10 digits 0 := by
  rw [Nat.ofDigitChars_append, Nat.ofDigitChars_replicate_zero, Nat.mul_zero]

/-- A number below one: zeros stand in front of its digits. -/
theorem spells_below_one {digits : List Char} (hdigits : SomeDigits digits) {lead : Int}
    (hpositional : data.positional lead = true) (hlead : lead < 0) :
    Spells ⟨['0'], some (List.replicate (-lead - 1).toNat '0' ++ digits), none⟩ digits lead := by
  refine ⟨⟨by simp [SomeDigits], by simp, ?_, by simp⟩, rfl, ?_, ?_⟩
  · rintro ds ⟨⟩
    refine ⟨by simp [hdigits.1], fun c hc => ?_⟩
    rw [List.mem_append] at hc
    cases hc with
    | inl hzero => exact isDigit_of_mem_replicate hzero
    | inr hdigit => exact hdigits.2 c hdigit
  · simp [Spelling.text, Spelling.fractionText, Spelling.exponentText, NumberFormat.layout,
      hpositional, hlead]
  · have hexponent : (0 : Int) - ((-lead - 1).toNat + digits.length : Nat) =
        lead + 1 - digits.length := by omega
    have hvalue : Nat.ofDigitChars 10 ('0' :: (List.replicate (-lead - 1).toNat '0' ++ digits)) 0 =
        Nat.ofDigitChars 10 digits 0 := ofDigitChars_zeros_append ((-lead - 1).toNat + 1) digits
    simp only [Decimal.value, Spelling.decimal, Spelling.exponentValue, Option.getD_some,
      List.length_append, List.length_replicate, List.singleton_append, hexponent, hvalue]

/-- A number with digits on both sides of the point. -/
theorem spells_mixed {digits : List Char} (hdigits : SomeDigits digits)
    (hzero : digits.head? ≠ some '0') {lead : Int} (hpositional : data.positional lead = true)
    (hlead : ¬lead < 0) (hpoint : lead.toNat + 1 < digits.length) :
    Spells ⟨digits.take (lead.toNat + 1), some (digits.drop (lead.toNat + 1)), none⟩ digits
      lead := by
  have hhead : (digits.take (lead.toNat + 1)).head? = digits.head? := by
    cases digits <;> simp
  refine ⟨⟨⟨?_, fun c hc => hdigits.2 c (List.mem_of_mem_take hc)⟩, ?_, ?_, by simp⟩, rfl, ?_, ?_⟩
  · simp [hdigits.1]
  · rw [hhead]
    exact fun h => absurd h hzero
  · rintro ds ⟨⟩
    refine ⟨by simp [hpoint], fun c hc => hdigits.2 c (List.mem_of_mem_drop hc)⟩
  · simp [Spelling.text, Spelling.fractionText, Spelling.exponentText, NumberFormat.layout,
      hpositional, hlead, hpoint]
  · have hexponent : (0 : Int) - (digits.length - (lead.toNat + 1) : Nat) =
        lead + 1 - digits.length := by omega
    simp only [Decimal.value, Spelling.decimal, Spelling.exponentValue, Option.getD_some,
      List.length_drop, List.take_append_drop, hexponent]

theorem ofDigitChars_append_zeros (digits : List Char) (n : Nat) :
    Nat.ofDigitChars 10 (digits ++ List.replicate n '0') 0 =
      10 ^ n * Nat.ofDigitChars 10 digits 0 := by
  rw [Nat.ofDigitChars_append, Nat.ofDigitChars_replicate_zero]

/-- A whole number: zeros stand behind its digits, and behind the point. -/
theorem spells_whole {digits : List Char} (hdigits : SomeDigits digits) {lead : Int}
    (hzero : digits.head? = some '0' → digits = ['0'] ∧ lead = 0)
    (hpositional : data.positional lead = true)
    (hlead : ¬lead < 0) (hpoint : ¬lead.toNat + 1 < digits.length) :
    Spells ⟨digits ++ List.replicate (lead.toNat + 1 - digits.length) '0', some ['0'], none⟩ digits
      lead := by
  have hdot : SomeDigits ['0'] := by simp [SomeDigits]
  refine ⟨⟨⟨by simp [hdigits.1], fun c hc => ?_⟩, ?_, ?_, by simp⟩, rfl, ?_, ?_⟩
  · rw [List.mem_append] at hc
    cases hc with
    | inl hdigit => exact hdigits.2 c hdigit
    | inr hzero => exact isDigit_of_mem_replicate hzero
  · intro hhead
    rw [List.head?_append_of_ne_nil _ hdigits.1] at hhead
    obtain ⟨rfl, rfl⟩ := hzero hhead
    rfl
  · rintro ds ⟨⟩
    exact hdot
  · have hwhole : data.wholeZero = true := rfl
    simp [Spelling.text, Spelling.fractionText, Spelling.exponentText, NumberFormat.layout,
      hpositional, hlead, hpoint, hwhole]
  · generalize hzeros : lead.toNat + 1 - digits.length = zeros
    have hexponent : lead + 1 - digits.length = zeros := by omega
    have hmore : digits ++ List.replicate zeros '0' ++ ['0'] =
        digits ++ List.replicate (zeros + 1) '0' := by
      rw [List.replicate_succ', List.append_assoc]
    simp only [Decimal.value, Spelling.decimal, Spelling.exponentValue, Option.getD_some,
      hexponent, hmore, ofDigitChars_append_zeros, List.length_singleton]
    push_cast
    rw [pow_succ]
    norm_num
    ring

/-- The digits of a number with the first one in front of the point. -/
def scientific (first : Char) (others : List Char) (lead : Int) : Spelling :=
  ⟨[first], if others = [] then none else some others,
    some (decide (lead < 0), decimal lead.natAbs)⟩

theorem getD_fraction_scientific (first : Char) (others : List Char) (lead : Int) :
    (scientific first others lead).fraction.getD [] = others := by
  rw [scientific]
  split
  · next hothers => simp [hothers]
  · rfl

/-- A number whose leading digit is far from the point. -/
theorem spells_scientific {first : Char} {others : List Char}
    (hdigits : SomeDigits (first :: others)) {lead : Int}
    (hpositional : ¬data.positional lead = true) :
    Spells (scientific first others lead) (first :: others) lead := by
  have hexponent : (scientific first others lead).exponentValue = lead := by
    simp only [scientific, Spelling.exponentValue, ofDigitChars_decimal, decide_eq_true_eq]
    split <;> omega
  have hfirst : first.isDigit = true := hdigits.2 first (by simp)
  have hothers : ∀ c ∈ others, c.isDigit = true := fun c hc => hdigits.2 c (by simp [hc])
  refine ⟨⟨?_, ?_, ?_, ?_⟩, ?_, ?_, ?_⟩
  · simpa [scientific, SomeDigits] using hfirst
  · simp [scientific]
  · intro ds hds
    simp only [scientific, Option.mem_def] at hds
    split at hds
    · contradiction
    · next hne =>
        rw [Option.some.injEq] at hds
        exact hds ▸ ⟨hne, hothers⟩
  · rintro e ⟨⟩
    exact someDigits_decimal lead.natAbs
  · simp [scientific, Spelling.isFloat]
  · cases others <;>
      simp [scientific, Spelling.text, Spelling.fractionText, Spelling.exponentText,
        NumberFormat.layout, hpositional]
  · have hlength : lead - others.length = lead + 1 - (first :: others).length := by
      rw [List.length_cons]
      omega
    have hwhole : (scientific first others lead).whole = [first] := rfl
    rw [Spelling.decimal, Decimal.value, getD_fraction_scientific, hexponent, hwhole, hlength,
      List.singleton_append]

/-- **Digits in the notation of the trace file** are a spelling of their
value. -/
theorem exists_spells {digits : List Char} (hdigits : SomeDigits digits) (lead : Int)
    (hzero : digits.head? = some '0' → digits = ['0'] ∧ lead = 0) :
    ∃ s, Spells s digits lead := by
  by_cases hpositional : data.positional lead = true
  · by_cases hlead : lead < 0
    · exact ⟨_, spells_below_one hdigits hpositional hlead⟩
    · by_cases hpoint : lead.toNat + 1 < digits.length
      · have hhead : digits.head? ≠ some '0' := by
          intro hhead
          obtain ⟨rfl, rfl⟩ := hzero hhead
          simp at hpoint
        exact ⟨_, spells_mixed hdigits hhead hpositional hlead hpoint⟩
      · exact ⟨_, spells_whole hdigits hzero hpositional hlead hpoint⟩
  · obtain ⟨first, others, rfl⟩ := List.exists_cons_of_ne_nil hdigits.1
    exact ⟨_, spells_scientific hdigits hpositional⟩

/-! ## Numbers -/

open Reader

/-- A spelling of a number as it is written, without its sign: the decimal is
covered by the number, or both are zero. -/
structure SpellsNumber (s : Spelling) (x : Binary64) : Prop where
  proper : s.Proper
  isFloat : s.isFloat = true
  text : s.text = data.unsigned x
  zero : x.magnitude = 0 → s.decimal.digits = 0
  covers : x.magnitude ≠ 0 → x.Covers s.decimal.value

/-- The notation of a zero is a spelling of it. -/
theorem exists_spellsNumber_zero {x : Binary64} (hzero : x.magnitude = 0) :
    ∃ s, SpellsNumber s x := by
  have hdigits : SomeDigits ['0'] := by simp [SomeDigits]
  obtain ⟨s, hs⟩ := exists_spells hdigits 0 (by simp)
  refine ⟨s, hs.proper, hs.isFloat, ?_, fun _ => ?_, fun hpos => absurd hzero hpos⟩
  · rw [hs.text, NumberFormat.unsigned, if_pos hzero]
  · have hvalue := hs.value
    have hpower : (10 : ℚ) ^ s.decimal.exponent ≠ 0 := by positivity
    simpa [Decimal.value, Nat.ofDigitChars_cons, hpower] using hvalue

/-- **The notation of a number** is a spelling of it. -/
theorem exists_spellsNumber (x : Binary64) : ∃ s, SpellsNumber s x := by
  by_cases hpos : x.magnitude = 0
  · exact exists_spellsNumber_zero hpos
  · have hcovers := Binary64.covers_shortest hpos data.tie
    generalize hshortest : x.shortest data.tie = d at hcovers
    have hdigits : d.digits ≠ 0 := by
      intro hzero
      have hvalue := hcovers.pos hpos
      simp [Decimal.value, hzero] at hvalue
    have hhead := head?_decimal_ne hdigits
    obtain ⟨s, hs⟩ := exists_spells (someDigits_decimal d.digits)
      (d.exponent + (decimal d.digits).length - 1) (fun h => absurd h hhead)
    have hvalue : s.decimal.value = d.value := by
      have hexponent : d.exponent + (decimal d.digits).length - 1 + 1 -
          (decimal d.digits).length = d.exponent := by omega
      rw [hs.value, ofDigitChars_decimal, hexponent, Decimal.value]
    refine ⟨s, hs.proper, hs.isFloat, ?_, fun hzero => absurd hzero hpos, fun _ => ?_⟩
    · rw [hs.text, NumberFormat.unsigned, if_neg hpos, hshortest]
    · rw [hvalue]
      exact hcovers

/-- A spelling of a number is read as the number if its digits are. -/
theorem SpellsNumber.spelledValue_eq {p : Precision} {s : Spelling} {x : Binary64}
    (h : SpellsNumber s x) (hfinite : x.isFinite = true)
    (hconvert : p.convert? x.negative s.whole (s.fraction.getD []) s.exponentValue = some x) :
    spelledValue p x.negative s = some (.float x hfinite) := by
  rw [spelledValue, if_pos h.isFloat, floatNumber, hconvert]
  exact dif_pos hfinite

/-- Its digits are, if the reader takes the nearest number. -/
theorem SpellsNumber.convert?_nearest {s : Spelling} {x : Binary64} (h : SpellsNumber s x)
    (hfinite : x.isFinite = true) :
    Precision.nearest.convert? x.negative s.whole (s.fraction.getD []) s.exponentValue =
      some x := by
  have hconvert : Precision.nearest.convert? x.negative s.whole (s.fraction.getD [])
      s.exponentValue = Binary64.ofDecimal? x.negative s.decimal.digits s.decimal.exponent := rfl
  rw [hconvert]
  by_cases hzero : x.magnitude = 0
  · have hsame := x.ofMagnitude_magnitude
    rw [hzero] at hsame
    rw [Binary64.ofDecimal?, if_pos (.inl (h.zero hzero)), hsame]
  · exact Binary64.ofDecimal?_eq_some hfinite hzero (h.covers hzero)

/-- The digits of an integer are read as the integer. -/
theorem spelledValue_integer (p : Precision) {n : Int}
    (hrange : -9223372036854775808 ≤ n ∧ n < 18446744073709551616) :
    spelledValue p (decide (n < 0)) ⟨decimal n.natAbs, none, none⟩ =
      some (.integer n hrange) := by
  have hsigned : (if decide (n < 0) = true then -(n.natAbs : Int) else n.natAbs) = n := by
    simp only [decide_eq_true_eq]
    split <;> omega
  have hzero : ¬(decide (n < 0) && n.natAbs == 0) = true := by
    simp
    omega
  have hfloat : ¬(⟨decimal n.natAbs, none, none⟩ : Spelling).isFloat = true := by
    simp [Spelling.isFloat]
  rw [spelledValue, if_neg hfloat, integerNumber]
  simp only [ofDigitChars_decimal, hsigned, dif_pos hrange, if_neg hzero]

theorem proper_integer (n : Nat) : (⟨decimal n, none, none⟩ : Spelling).Proper := by
  refine ⟨someDigits_decimal n, ?_, by simp, by simp⟩
  intro hhead
  by_cases hzero : n = 0
  · rw [hzero]
    rfl
  · exact absurd hhead (head?_decimal_ne hzero)

/-- The text of an integer is the spelling of its digits. -/
theorem renderNumber_integer {n : Int}
    (hrange : -9223372036854775808 ≤ n ∧ n < 18446744073709551616) :
    renderNumber (.integer n hrange) = (if decide (n < 0) then ['-'] else []) ++
      (⟨decimal n.natAbs, none, none⟩ : Spelling).text := by
  simp only [renderNumber, signedDecimal, decide_eq_true_eq]
  split <;> simp [Spelling.text, Spelling.fractionText, Spelling.exponentText]

/-- The text of a floating-point number is a spelling of it behind its sign. -/
theorem SpellsNumber.renderNumber_eq {s : Spelling} {x : Binary64} (h : SpellsNumber s x)
    (hfinite : x.isFinite = true) :
    renderNumber (.float x hfinite) = (if x.negative then ['-'] else []) ++ s.text := by
  have hnan := Binary64.isNaN_eq_false_of_isFinite hfinite
  rw [renderNumber, NumberFormat.render, hnan, if_neg (by simp), if_pos hfinite, h.text]

/-- The text of a number is a spelling that is read as the number, if the reader
takes the nearest one. -/
theorem exists_spelling (n : Number) :
    ∃ (negative : Bool) (s : Spelling), s.Proper ∧
      renderNumber n = (if negative then ['-'] else []) ++ s.text ∧
      spelledValue .nearest negative s = some n := by
  cases n with
  | integer n hrange =>
      exact ⟨_, _, proper_integer n.natAbs, renderNumber_integer hrange,
        spelledValue_integer .nearest hrange⟩
  | float x hfinite =>
      obtain ⟨s, hs⟩ := exists_spellsNumber x
      exact ⟨x.negative, s, hs.proper, hs.renderNumber_eq hfinite,
        hs.spelledValue_eq hfinite (hs.convert?_nearest hfinite)⟩

/-- A number begins with a sign or a digit. -/
theorem exists_startsNumber (n : Number) :
    ∃ c cs, renderNumber n = c :: cs ∧ startsNumber c = true := by
  obtain ⟨negative, s, hproper, htext, -⟩ := exists_spelling n
  obtain ⟨c, cs, hwhole⟩ := List.exists_cons_of_ne_nil hproper.whole.1
  have hdigit : c.isDigit = true := hproper.whole.2 c (by simp [hwhole])
  cases negative with
  | true => exact ⟨'-', s.text, by simpa using htext, rfl⟩
  | false =>
      refine ⟨c, cs ++ (s.fractionText ++ s.exponentText), ?_, by simp [startsNumber, hdigit]⟩
      simpa [Spelling.text, hwhole] using htext

/-! ## Numbers read from the texts of numbers -/

end Json

/-- The text of the number is read as the other number. -/
def Number.ReadAs (p : Precision) (n m : Number) : Prop :=
  Json.Reader.number p (Json.renderNumber n) = .ok (m, [])

instance (p : Precision) (n m : Number) : Decidable (n.ReadAs p m) :=
  inferInstanceAs (Decidable (_ = _))

/-- The number is read back from its own text. -/
def Number.Legible (p : Precision) (n : Number) : Prop := n.ReadAs p n

instance (p : Precision) (n : Number) : Decidable (n.Legible p) :=
  inferInstanceAs (Decidable (n.ReadAs p n))

namespace Number

open Json Json.Reader

/-- A number is read back if a spelling that is its text has its value. -/
theorem legible_of_spelling {p : Precision} {n : Number} {negative : Bool} {s : Spelling}
    (hproper : s.Proper) (htext : renderNumber n = (if negative then ['-'] else []) ++ s.text)
    (hvalue : spelledValue p negative s = some n) : n.Legible p := by
  have hread := number_spelling hproper p negative (show EndsNumber [] by simp [EndsNumber])
  rwa [List.append_nil, ← htext, hvalue] at hread

/-- Every number is, by a reader that takes the nearest one. -/
theorem legible_nearest (n : Number) : n.Legible .nearest := by
  obtain ⟨negative, s, hproper, htext, hvalue⟩ := exists_spelling n
  exact legible_of_spelling hproper htext hvalue

/-- An integer is, by any reader. -/
theorem legible_integer (p : Precision) {n : Int}
    (hrange : -9223372036854775808 ≤ n ∧ n < 18446744073709551616) :
    (Number.integer n hrange).Legible p :=
  legible_of_spelling (proper_integer n.natAbs) (renderNumber_integer hrange)
    (spelledValue_integer p hrange)

/-- **What the text of a number is read as** stays the same in front of what does
not go on with it. -/
theorem ReadAs.append {p : Precision} {n m : Number} (h : n.ReadAs p m) {rest : List Char}
    (hrest : EndsNumber rest) : number p (renderNumber n ++ rest) = .ok (m, rest) := by
  obtain ⟨negative, s, hproper, htext, -⟩ := exists_spelling n
  have halone := number_spelling hproper p negative (show EndsNumber [] by simp [EndsNumber])
  rw [List.append_nil, ← htext, h] at halone
  rw [htext, List.append_assoc, number_spelling hproper p negative hrest]
  cases hvalue : spelledValue p negative s with
  | none => simp [hvalue] at halone
  | some value =>
      simp only [hvalue, Option.elim_some, Except.ok.injEq, Prod.mk.injEq, and_true] at halone
      rw [halone, Option.elim_some]

end Number

end TraceLog
