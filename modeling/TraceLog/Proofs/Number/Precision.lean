import TraceLog.Number.Precision
import TraceLog.Proofs.Number.Shortest

/-!
# TraceLog.Proofs.Number.Precision

Digits that are read without loss at either precision.

A natural number below `2 ^ 53` is a floating-point number, and so is a power of
ten up to the twenty-second.  The quotient of the two is rounded once, so a
decimal of such digits with so many places behind the point is read as the
nearest number also by the arithmetic of the format.

* `Decimal.leading_eq` — digits that fit 64 bits are all kept;
* `Binary64.ratio_ofInt` / `Binary64.ratio_tenPower` — what is not rounded;
* `Precision.convert?_bestEffort` — digits that are read without loss.
-/

namespace TraceLog

namespace Decimal

theorem le_ofDigitChars (n : Nat) (cs : List Char) : n ≤ Nat.ofDigitChars 10 cs n := by
  induction cs generalizing n with
  | nil => exact Nat.le_refl n
  | cons c cs ih =>
      rw [Nat.ofDigitChars_cons]
      refine Nat.le_trans ?_ (ih _)
      omega

/-- Digits that fit 64 bits are all kept. -/
theorem keep_eq {n : Nat} {cs : List Char}
    (h : Nat.ofDigitChars 10 cs n < 18446744073709551616) :
    keep n cs = (Nat.ofDigitChars 10 cs n, []) := by
  induction cs generalizing n with
  | nil => rfl
  | cons c cs ih =>
      have hsplit : Nat.ofDigitChars 10 (c :: cs) n =
          Nat.ofDigitChars 10 cs (Nat.ofDigitChars 10 [c] n) :=
        Nat.ofDigitChars_append n (l := [c])
      have hnext := le_ofDigitChars (Nat.ofDigitChars 10 [c] n) cs
      rw [hsplit] at h ⊢
      rw [keep, if_pos (Nat.lt_of_le_of_lt hnext h), ih h]

/-- **Digits that fit 64 bits** are the digits of the decimal. -/
theorem leading_eq {whole fraction : List Char}
    (h : Nat.ofDigitChars 10 (whole ++ fraction) 0 < 18446744073709551616) :
    leading whole fraction =
      ⟨Nat.ofDigitChars 10 (whole ++ fraction) 0, -(fraction.length : Int)⟩ := by
  rw [Nat.ofDigitChars_append] at h ⊢
  have hwhole := le_ofDigitChars (Nat.ofDigitChars 10 whole 0) fraction
  rw [leading, keep_eq (Nat.lt_of_le_of_lt hwhole h)]
  simp [keep_eq h]

end Decimal

namespace Binary64

/-! ## Numbers that are not rounded -/

/-- The parts of a pattern with a hidden bit. -/
theorem fields_ofMagnitude {field fraction : Nat} (hfield : 0 < field) (hlast : field < 2047)
    (hfraction : fraction < 2 ^ 52) :
    (ofMagnitude false (field * 2 ^ 52 + fraction)).significand = 2 ^ 52 + fraction ∧
      (ofMagnitude false (field * 2 ^ 52 + fraction)).exponent = (field : Int) - 1075 := by
  have hmagnitude : (ofMagnitude false (field * 2 ^ 52 + fraction)).magnitude =
      field * 2 ^ 52 + fraction := magnitude_ofMagnitude false (by rw [signPlace]; omega)
  have hfield' : (ofMagnitude false (field * 2 ^ 52 + fraction)).exponentField = field := by
    rw [exponentField, hmagnitude, exponentPlace_eq]
    omega
  have hfraction' : (ofMagnitude false (field * 2 ^ 52 + fraction)).fraction = fraction := by
    rw [Binary64.fraction, hmagnitude, exponentPlace_eq]
    omega
  rw [significand, exponent, hfield', hfraction', if_neg hfield.ne', if_neg hfield.ne',
    exponentPlace_eq]
  exact ⟨rfl, rfl⟩

theorem floorLog2_one {n : Nat} (hpos : n ≠ 0) : floorLog2 n 1 = Nat.log2 n := by
  have hlow := Nat.log2_self_le hpos
  have hone : Nat.log2 1 = 0 := by decide
  have hpower : power 2 (-(Nat.log2 n : Int)) = 1 := by simp [power]
  have hpower' : power 2 (Nat.log2 n : Int) = 2 ^ Nat.log2 n := rfl
  rw [floorLog2, hone]
  simp only [Nat.cast_zero, Int.sub_zero, hpower, hpower', Nat.mul_one, Nat.one_mul]
  exact if_neg (Nat.not_lt.2 hlow)

/-- A natural number below `2 ^ 53` has all its digits in the significand. -/
theorem roundRatio_one {n : Nat} (hpos : n ≠ 0) (h : n < 2 ^ 53) :
    roundRatio n 1 = n * 2 ^ (52 - Nat.log2 n) + (Nat.log2 n + 1022) * 2 ^ 52 := by
  have hlog : Nat.log2 n < 53 := (Nat.log2_lt hpos).2 h
  have hunit : max (floorLog2 n 1 - 52) (-1074) = (Nat.log2 n : Int) - 52 := by
    rw [floorLog2_one hpos]
    omega
  have hexact : (n : ℚ) / (1 : Nat) / 2 ^ ((Nat.log2 n : Int) - 52) =
      (n * 2 ^ (52 - Nat.log2 n) : Nat) := by
    have hexponent : ((Nat.log2 n : Int) - 52) = -((52 - Nat.log2 n : Nat) : Int) := by omega
    rw [hexponent, zpow_neg, zpow_natCast, div_inv_eq_mul]
    push_cast
    ring
  have hplaces : ((Nat.log2 n : Int) - 52 + 1074).toNat = Nat.log2 n + 1022 := by omega
  rw [roundRatio_eq (Nat.pos_of_ne_zero hpos) Nat.one_pos hunit (n := n * 2 ^ (52 - Nat.log2 n)),
    hplaces, exponentPlace_eq]
  · rw [hexact]
    linarith
  · rw [hexact]
    linarith
  · rw [hexact]
    rintro (hdown | hup)
    · linarith
    · linarith

/-- **A natural number below `2 ^ 53`** is the number nearest to it. -/
theorem ratio_ofInt {n : Nat} (h : n < 2 ^ 53) :
    ((ofInt n).ratio.1 : ℚ) / (ofInt n).ratio.2 = n := by
  by_cases hpos : n = 0
  · have hsignificand : (ofInt (0 : Nat)).significand = 0 := by decide
    rw [hpos, ratio_eq, hsignificand]
    simp
  · have hlog : Nat.log2 n < 53 := (Nat.log2_lt hpos).2 h
    have hlow : 2 ^ 52 ≤ n * 2 ^ (52 - Nat.log2 n) := by
      calc 2 ^ 52 = 2 ^ Nat.log2 n * 2 ^ (52 - Nat.log2 n) := by
            rw [← Nat.pow_add]
            congr 1
            omega
        _ ≤ n * 2 ^ (52 - Nat.log2 n) := Nat.mul_le_mul_right _ (Nat.log2_self_le hpos)
    have hhigh : n * 2 ^ (52 - Nat.log2 n) < 2 ^ 53 := by
      calc n * 2 ^ (52 - Nat.log2 n) < 2 ^ (Nat.log2 n + 1) * 2 ^ (52 - Nat.log2 n) :=
            Nat.mul_lt_mul_of_pos_right Nat.lt_log2_self (Nat.two_pow_pos _)
        _ = 2 ^ 53 := by
            rw [← Nat.pow_add]
            congr 1
            omega
    have hnumber : ofInt n = ofMagnitude false
        ((Nat.log2 n + 1023) * 2 ^ 52 + (n * 2 ^ (52 - Nat.log2 n) - 2 ^ 52)) := by
      have hsign : decide ((n : Int) < 0) = false := by simp
      have hcarry : n * 2 ^ (52 - Nat.log2 n) + (Nat.log2 n + 1022) * 2 ^ 52 =
          (Nat.log2 n + 1023) * 2 ^ 52 + (n * 2 ^ (52 - Nat.log2 n) - 2 ^ 52) := by omega
      rw [ofInt, hsign, Int.natAbs_natCast, roundRatio_one hpos h, hcarry]
    have hfraction : n * 2 ^ (52 - Nat.log2 n) - 2 ^ 52 < 2 ^ 52 := by omega
    obtain ⟨hsignificand, hexponent⟩ :=
      fields_ofMagnitude (show 0 < Nat.log2 n + 1023 by omega) (by omega) hfraction
    rw [← hnumber] at hsignificand hexponent
    rw [ratio_eq, hsignificand, hexponent, Nat.add_sub_cancel' hlow]
    have hplaces : (((Nat.log2 n + 1023 : Nat) : Int) - 1075) =
        -((52 - Nat.log2 n : Nat) : Int) := by omega
    rw [hplaces, zpow_neg, zpow_natCast]
    push_cast
    field_simp

/-- **A power of ten** up to the twenty-second is the number nearest to it. -/
theorem ratio_tenPower {n : Nat} (h : n ≤ 22) :
    ((tenPower n).ratio.1 : ℚ) / (tenPower n).ratio.2 = 10 ^ n := by
  have hexact : ∀ n < 23, (tenPower n).ratio.1 = 10 ^ n * (tenPower n).ratio.2 := by
    decide +kernel
  have hpos : ((tenPower n).ratio.2 : ℚ) ≠ 0 := by exact_mod_cast (ratio_snd_pos _).ne'
  rw [hexact n (by omega)]
  push_cast
  field_simp

/-! ## One rounding -/

/-- A quotient is rounded once, so a number that covers it is its result. -/
theorem quotient_eq {x y z : Binary64} {num den : ℚ}
    (hx : (x.ratio.1 : ℚ) / x.ratio.2 = num) (hy : (y.ratio.1 : ℚ) / y.ratio.2 = den)
    (hden : 0 < den) (hz : z.magnitude ≠ 0) (hcovers : z.Covers (num / den)) :
    x.quotient y = ofMagnitude false z.magnitude := by
  have hypos : 0 < y.ratio.1 := by
    rw [Nat.pos_iff_ne_zero]
    intro hzero
    rw [hzero, Nat.cast_zero, zero_div] at hy
    exact hden.ne hy
  have hvalue : ((x.ratio.1 * y.ratio.2 : Nat) : ℚ) / (x.ratio.2 * y.ratio.1 : Nat) =
      num / den := by
    rw [← hx, ← hy, Nat.cast_mul, Nat.cast_mul, div_div_div_eq]
  rw [quotient, Covers.roundRatio_eq (hvalue ▸ hcovers) hz (Nat.mul_pos x.ratio_snd_pos hypos)]

end Binary64

/-- **Few digits are read without loss.**  The digits make a natural number
below `2 ^ 53`, and no more than twenty-two of them stand behind the point. -/
theorem Precision.convert?_bestEffort {x : Binary64} {whole fraction : List Char} {n : Nat}
    (hdigits : Nat.ofDigitChars 10 (whole ++ fraction) 0 = n) (hsmall : n < 2 ^ 53)
    (hplaces : fraction.length ≤ 22) (hpoint : fraction ≠ []) (hzero : x.magnitude = 0 → n = 0)
    (hcovers : x.magnitude ≠ 0 → x.Covers (n / 10 ^ fraction.length)) :
    Precision.bestEffort.convert? x.negative whole fraction 0 = some x := by
  have hleading : Decimal.leading whole fraction = ⟨n, -(fraction.length : Int)⟩ := by
    rw [Decimal.leading_eq (hdigits ▸ by omega), hdigits]
  have hlength : 0 < fraction.length := List.length_pos_iff.2 hpoint
  have hsteps : (fraction.length - 1) / Binary64.lastTenPower = 0 := by
    rw [Binary64.lastTenPower]
    omega
  have hscale : (Binary64.ofInt n).scale? (-(fraction.length : Int) + 0) =
      some ((Binary64.ofInt n).quotient (Binary64.tenPower fraction.length)) := by
    rw [Binary64.scale?, if_pos (by omega)]
    simp [hsteps, Binary64.lower]
  have hquotient : (Binary64.ofInt n).quotient (Binary64.tenPower fraction.length) =
      .ofMagnitude false x.magnitude := by
    by_cases hpos : x.magnitude = 0
    · have hnone : (Binary64.ofInt (0 : Nat)).ratio.1 = 0 := by decide
      rw [hzero hpos, hpos, Binary64.quotient, hnone, Nat.zero_mul, Binary64.roundRatio, if_pos rfl]
    · exact Binary64.quotient_eq (Binary64.ratio_ofInt hsmall) (Binary64.ratio_tenPower hplaces)
        (by positivity) hpos (hcovers hpos)
  have hbound : x.magnitude < Binary64.signPlace := Nat.mod_lt _ (by decide)
  rw [convert?, hleading]
  dsimp only
  rw [hscale, hquotient, Option.map_some, Binary64.magnitude_ofMagnitude false hbound,
    x.ofMagnitude_magnitude]

end TraceLog
