import Mathlib.Algebra.Order.Field.Power
import Mathlib.Algebra.Order.Field.Rat
import Mathlib.Tactic.Linarith
import Mathlib.Tactic.Positivity
import TraceLog.Number.Shortest

/-!
# TraceLog.Proofs.Number.Value

The numbers that patterns stand for.

Everything about a pattern is computed with naturals and integers; here it is
said which rational a finite pattern stands for, and that a comparison with a
quotient compares that rational.

* `Binary64.toRat` — the number that a finite pattern stands for;
* `Binary64.exceedsRatio_iff` — the comparison with a quotient.
-/

namespace TraceLog

theorem power_pos {base : Nat} (hbase : 0 < base) (exponent : Int) : 0 < power base exponent :=
  Nat.pow_pos hbase

/-- A power over that of the opposite exponent is the power, whatever the sign
of the exponent. -/
theorem power_div_power {base : Nat} (hbase : 0 < base) (exponent : Int) :
    (power base exponent : ℚ) / power base (-exponent) = (base : ℚ) ^ exponent := by
  have hne : (base : ℚ) ≠ 0 := by positivity
  obtain ⟨n, rfl | rfl⟩ := exponent.eq_nat_or_neg
  · simp [power]
  · simp [power]

/-- Powers on both sides of a comparison are a power on one side. -/
theorem mul_power_lt_mul_power_iff {base : Nat} (hbase : 0 < base) (exponent : Int) (num : Nat)
    {den : Nat} (hden : 0 < den) :
    num * power base (-exponent) < den * power base exponent ↔
      (num : ℚ) / den < (base : ℚ) ^ exponent := by
  have hpos : (0 : ℚ) < den := by exact_mod_cast hden
  have hpower : (0 : ℚ) < power base (-exponent) := by exact_mod_cast power_pos hbase _
  rw [← power_div_power hbase, div_lt_div_iff₀ hpos hpower, mul_comm (power base exponent : ℚ)]
  exact_mod_cast Iff.rfl

namespace Binary64

/-- The number that a finite pattern stands for. -/
def toRat (x : Binary64) : ℚ :=
  (if x.negative then -1 else 1) * (x.significand * 2 ^ x.exponent)

theorem ratio_eq (x : Binary64) :
    (x.ratio.1 : ℚ) / x.ratio.2 = x.significand * 2 ^ x.exponent := by
  have hpower : (power 2 x.exponent : ℚ) / power 2 (-x.exponent) = 2 ^ x.exponent :=
    power_div_power (by decide) _
  rw [ratio, ← hpower, Nat.cast_mul, mul_div_assoc]

theorem ratio_snd_pos (x : Binary64) : 0 < x.ratio.2 := power_pos (by decide) _

/-- **A comparison with a quotient** compares the number that the pattern
stands for. -/
theorem exceedsRatio_iff {x : Binary64} (hfinite : x.isFinite = true) (num : Nat) {den : Nat}
    (hden : 0 < den) : x.exceedsRatio num den = true ↔ (num : ℚ) / den < x.toRat := by
  have hnan := isNaN_eq_false_of_isFinite hfinite
  have hquotient : (0 : ℚ) ≤ (num : ℚ) / den := by positivity
  have hsize : (0 : ℚ) ≤ x.significand * 2 ^ x.exponent := by positivity
  rw [exceedsRatio, toRat]
  cases hnegative : x.negative with
  | true =>
      have hbelow : -(x.significand * 2 ^ x.exponent : ℚ) ≤ num / den := by linarith
      simpa using hbelow
  | false =>
      have hpos : (0 : ℚ) < x.ratio.2 := by exact_mod_cast x.ratio_snd_pos
      have hden' : (0 : ℚ) < den := by exact_mod_cast hden
      have hcross : (num : ℚ) / den < x.ratio.1 / x.ratio.2 ↔
          num * x.ratio.2 < x.ratio.1 * den := by
        rw [div_lt_div_iff₀ hden' hpos]
        exact_mod_cast Iff.rfl
      simp [hnan, hfinite, ← hcross, ratio_eq]

end Binary64

end TraceLog
