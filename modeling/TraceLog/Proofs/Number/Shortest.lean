import Mathlib.Order.Compare
import TraceLog.Proofs.Number.Rounding

/-!
# TraceLog.Proofs.Number.Shortest

Decimals that are read back as the number they were written for.

A decimal identifies a number exactly if the number covers its value.  The
search always ends with such a decimal, since the exact value of the number is
one; so rounding the decimal that is written gives the number again.

* `Binary64.identifiedBy_iff` — what identifying a number means;
* `Binary64.covers_shortest` — the shortest decimal is covered;
* `Binary64.ofDecimal?_eq_some` — covered decimals are read as the number.
-/

namespace TraceLog

namespace Decimal

/-- The number that a decimal stands for. -/
def value (d : Decimal) : ℚ := d.digits * 10 ^ d.exponent

/-- A comparison with a binary number compares the values. -/
theorem compareBinary_eq (a : Nat) (i : Int) (n : Nat) (j : Int) :
    compareBinary a i n j = compare ((a : ℚ) * 10 ^ i) (n * 2 ^ j) := by
  have hten : (power 10 i : ℚ) / power 10 (-i) = 10 ^ i := power_div_power (by decide) i
  have htwo : (power 2 j : ℚ) / power 2 (-j) = 2 ^ j := power_div_power (by decide) j
  have hpos : (0 : ℚ) < power 10 (-i) := by exact_mod_cast power_pos (by decide) _
  have hpos' : (0 : ℚ) < power 2 (-j) := by exact_mod_cast power_pos (by decide) _
  have hscale : StrictMono fun n : Nat => (n : ℚ) / (power 10 (-i) * power 2 (-j)) := by
    intro p q hless
    have hcast : (p : ℚ) < q := by exact_mod_cast hless
    dsimp only
    gcongr
  have hcompare := hscale.cmp_map_eq (a * power 10 i * power 2 (-j))
    (n * power 2 j * power 10 (-i))
  rw [cmp_eq_compare, cmp_eq_compare] at hcompare
  rw [compareBinary, ← hcompare, ← hten, ← htwo]
  congr 1
  · push_cast
    field_simp
  · push_cast
    field_simp

/-- Zeros moved into the exponent leave the value as it is. -/
theorem value_stripZeros (fuel : Nat) (d : Decimal) : (d.stripZeros fuel).value = d.value := by
  induction fuel generalizing d with
  | zero => rfl
  | succ fuel ih =>
      rw [stripZeros]
      split
      · next hzero =>
          have hdigits : d.digits = 10 * (d.digits / 10) := by omega
          rw [ih, value, value, zpow_add_one₀ (by norm_num)]
          conv_rhs => rw [hdigits]
          push_cast
          ring
      · rfl

/-- The range of the format is well inside that of three-digit exponents. -/
theorem two_zpow_lt_ten_zpow : (2 : ℚ) ^ (1075 : Int) < 10 ^ (400 : Int) := by
  calc (2 : ℚ) ^ (1075 : Int) < 2 ^ (1200 : Int) := zpow_lt_zpow_right₀ one_lt_two (by decide)
    _ = (2 ^ 3) ^ (400 : Int) := by
        rw [← zpow_natCast, ← zpow_mul]
        congr 1
    _ ≤ 10 ^ (400 : Int) := zpow_le_zpow_left₀ (by decide) (by norm_num) (by norm_num)

/-- A decimal that is far below the range of the format. -/
theorem value_lt_of_exponent_lt {d : Decimal}
    (h : d.exponent < -400 - (Nat.log2 d.digits : Int)) : d.value < 2 ^ (-1075 : Int) := by
  have hlog : (Nat.log2 d.digits : Int) + 1 ≤ -(d.exponent + 400) := by omega
  have hdigits : (d.digits : ℚ) < 2 ^ ((Nat.log2 d.digits : Int) + 1) := by
    exact_mod_cast Nat.lt_log2_self (n := d.digits)
  have hpow : (0 : ℚ) < 10 ^ d.exponent := by positivity
  calc d.value < 2 ^ ((Nat.log2 d.digits : Int) + 1) * 10 ^ d.exponent := by
        rw [value]
        gcongr
    _ ≤ 2 ^ (-(d.exponent + 400)) * 10 ^ d.exponent := by
        gcongr
        norm_num
    _ ≤ 10 ^ (-(d.exponent + 400)) * 10 ^ d.exponent := by
        have hnonneg : 0 ≤ -(d.exponent + 400) := by omega
        gcongr ?_ * _
        exact zpow_le_zpow_left₀ hnonneg (by norm_num) (by norm_num)
    _ = 10 ^ (-400 : Int) := by
        rw [← zpow_add₀ (by norm_num)]
        ring_nf
    _ < 2 ^ (-1075 : Int) := by
        have hpos : (0 : ℚ) < 2 ^ (1075 : Int) := by positivity
        rw [zpow_neg, zpow_neg]
        exact inv_strictAnti₀ hpos two_zpow_lt_ten_zpow

/-- A decimal that is far above the range of the format. -/
theorem lt_value_of_lt_exponent {d : Decimal} (hdigits : d.digits ≠ 0) (h : 400 < d.exponent) :
    2 ^ (1024 : Int) < d.value := by
  have hone : (1 : ℚ) ≤ d.digits := by exact_mod_cast Nat.pos_of_ne_zero hdigits
  have hpow : (10 : ℚ) ^ (400 : Int) ≤ 10 ^ d.exponent :=
    zpow_le_zpow_right₀ (by norm_num) h.le
  calc (2 : ℚ) ^ (1024 : Int) ≤ 2 ^ (1075 : Int) := zpow_le_zpow_right₀ one_le_two (by decide)
    _ < 10 ^ (400 : Int) := two_zpow_lt_ten_zpow
    _ ≤ 10 ^ d.exponent := hpow
    _ = 1 * 10 ^ d.exponent := (one_mul _).symm
    _ ≤ d.digits * 10 ^ d.exponent := by gcongr

end Decimal

namespace Binary64

variable {x : Binary64}

/-- The ends of what a number covers. -/
theorem covers_iff (x : Binary64) (value : ℚ) :
    x.Covers value ↔
      (x.significand - x.reach) * 2 ^ x.exponent ≤ value ∧
        value ≤ (x.significand + 1 / 2) * 2 ^ x.exponent ∧
        (value = (x.significand - x.reach) * 2 ^ x.exponent ∨
          value = (x.significand + 1 / 2) * 2 ^ x.exponent → x.significand % 2 = 0) := by
  have hscale : (0 : ℚ) < 2 ^ x.exponent := by positivity
  rw [← le_div_iff₀ hscale, ← div_le_iff₀ hscale, ← div_eq_iff hscale.ne',
    ← div_eq_iff hscale.ne']
  exact ⟨fun h => ⟨h.low, h.high, h.even⟩, fun h => ⟨h.1, h.2.1, h.2.2⟩⟩

/-- **What identifying a number means**: the number covers the value of the
decimal. -/
theorem identifiedBy_iff (hpos : x.magnitude ≠ 0) (d : Decimal) :
    x.identifiedBy d = true ↔ x.Covers d.value := by
  have hsignificand := significand_pos hpos
  have hquarter : (2 : ℚ) ^ (x.exponent - 2) = 2 ^ x.exponent / 4 := by
    rw [zpow_sub₀ two_ne_zero]
    norm_num
  have hlow : (((if x.narrowBelow then 4 * x.significand - 1 else 4 * x.significand - 2 : Nat) : ℚ))
      * 2 ^ (x.exponent - 2) = (x.significand - x.reach) * 2 ^ x.exponent := by
    have hone : 1 ≤ 4 * x.significand := by omega
    have htwo : 2 ≤ 4 * x.significand := by omega
    rw [hquarter, reach]
    split
    · push_cast [Nat.cast_sub hone]
      ring
    · push_cast [Nat.cast_sub htwo]
      ring
  have hhigh : ((4 * x.significand + 2 : Nat) : ℚ) * 2 ^ (x.exponent - 2) =
      (x.significand + 1 / 2) * 2 ^ x.exponent := by
    rw [hquarter]
    push_cast
    ring
  rw [covers_iff, identifiedBy, Decimal.compareBinary_eq, Decimal.compareBinary_eq, hlow, hhigh,
    ← Decimal.value]
  generalize (x.significand - x.reach : ℚ) * 2 ^ x.exponent = low
  generalize (x.significand + 1 / 2 : ℚ) * 2 ^ x.exponent = high
  simp only [Bool.and_eq_true, Bool.or_eq_true, beq_iff_eq, compare_gt_iff_gt, compare_lt_iff_lt,
    compare_eq_iff_eq]
  grind

/-! ## The search -/

/-- A number covers itself. -/
theorem covers_self (x : Binary64) : x.Covers (x.significand * 2 ^ x.exponent) := by
  have hscale : (2 : ℚ) ^ x.exponent ≠ 0 := by positivity
  have hreach : 0 < x.reach := by
    rw [reach]
    split <;> norm_num
  have hself : (x.significand : ℚ) * 2 ^ x.exponent / 2 ^ x.exponent = x.significand :=
    mul_div_cancel_right₀ _ hscale
  constructor
  · rw [hself]
    linarith
  · rw [hself]
    linarith
  · rw [hself]
    rintro (hdown | hup)
    · linarith
    · linarith

/-- The exact decimal has the value of the number. -/
theorem value_exactDecimal (x : Binary64) :
    x.exactDecimal.value = x.significand * 2 ^ x.exponent := by
  rw [exactDecimal, Decimal.value]
  obtain ⟨n, hn | hn⟩ := x.exponent.eq_nat_or_neg
  · rw [hn]
    simp [power]
  · rw [hn]
    have hten : (10 : ℚ) ^ n = 5 ^ n * 2 ^ n := by rw [← mul_pow]; norm_num
    simp [power, hten]
    field_simp

/-- What is found on a grid identifies the number. -/
theorem identifiedBy_of_onGrid {tie : TieRule} {g : Int} {d : Decimal}
    (h : x.onGrid tie g = some d) : x.identifiedBy d = true := by
  rw [onGrid] at h
  dsimp only at h
  split at h
  · contradiction
  · next hlow _ =>
      rw [Option.some.injEq] at h
      exact h ▸ hlow
  · next hhigh =>
      rw [Option.some.injEq] at h
      exact h ▸ hhigh
  · next hlow hhigh =>
      split at h
      · rw [Option.some.injEq] at h
        exact h ▸ hlow
      · rw [Option.some.injEq] at h
        exact h ▸ hhigh
      · rw [Option.some.injEq] at h
        split at h
        · exact h ▸ hlow
        · exact h ▸ hhigh

/-- **The shortest decimal is covered**, whether the search has found it or
the exact value stands in. -/
theorem covers_shortest (hpos : x.magnitude ≠ 0) (tie : TieRule) :
    x.Covers (x.shortest tie).value := by
  unfold shortest
  dsimp only
  split
  · next d hfound =>
      obtain ⟨n, -, hgrid⟩ := List.exists_of_findSome?_eq_some hfound
      rw [Decimal.value_stripZeros, ← identifiedBy_iff hpos]
      exact identifiedBy_of_onGrid hgrid
  · rw [value_exactDecimal]
    exact x.covers_self

/-! ## Reading a decimal -/

/-- A number and its sign are the number. -/
theorem ofMagnitude_magnitude (x : Binary64) : ofMagnitude x.negative x.magnitude = x := by
  have hbound := x.bits.toNat_lt
  have hparts : x.magnitude + (if x.negative then signPlace else 0) = x.bits.toNat := by
    rw [magnitude, negative, signPlace]
    simp only [decide_eq_true_eq]
    split <;> omega
  rw [ofMagnitude, hparts, UInt64.ofNat_toNat]

/-- What a number covers is not far below the range of the format. -/
theorem Covers.le_value {value : ℚ} (h : x.Covers value) (hpos : x.magnitude ≠ 0) :
    (2 : ℚ) ^ (-1075 : Int) ≤ value := by
  have hone := one_le_significand hpos
  have hreach := x.reach_le
  have hhalf : (2 : ℚ) ^ (-1 : Int) ≤ x.significand - x.reach := by
    rw [zpow_neg_one]
    linarith
  have hleast : (2 : ℚ) ^ (-1074 : Int) ≤ 2 ^ x.exponent :=
    zpow_le_zpow_right₀ one_le_two x.exponent_ge
  have hnonneg : (0 : ℚ) ≤ 2 ^ (-1074 : Int) := zpow_nonneg zero_le_two _
  calc (2 : ℚ) ^ (-1075 : Int) = 2 ^ (-1 : Int) * 2 ^ (-1074 : Int) :=
        zpow_add₀ two_ne_zero (-1) (-1074)
    _ ≤ (x.significand - x.reach) * 2 ^ x.exponent :=
        mul_le_mul hhalf hleast hnonneg ((zpow_nonneg zero_le_two _).trans hhalf)
    _ ≤ value := ((x.covers_iff value).1 h).1

/-- What a finite number covers is not above the range of the format. -/
theorem Covers.value_lt {value : ℚ} (h : x.Covers value) (hfinite : x.isFinite = true) :
    value < 2 ^ (1024 : Int) := by
  have hsignificand := x.significand_add_one_le
  have hbelow : (x.significand : ℚ) + 1 / 2 < 2 ^ (53 : Int) := by linarith
  have hscale : (0 : ℚ) < 2 ^ x.exponent := zpow_pos zero_lt_two _
  have hmost : (2 : ℚ) ^ x.exponent ≤ 2 ^ (971 : Int) :=
    zpow_le_zpow_right₀ one_le_two (exponent_le hfinite)
  calc value ≤ (x.significand + 1 / 2) * 2 ^ x.exponent := ((x.covers_iff value).1 h).2.1
    _ < 2 ^ (53 : Int) * 2 ^ x.exponent := mul_lt_mul_of_pos_right hbelow hscale
    _ ≤ 2 ^ (53 : Int) * 2 ^ (971 : Int) :=
        mul_le_mul_of_nonneg_left hmost (zpow_nonneg zero_le_two _)
    _ = 2 ^ (1024 : Int) := (zpow_add₀ two_ne_zero 53 971).symm

/-- **A covered decimal is read as the number.**  Its exponent is neither so
large nor so small that it would be decided without rounding. -/
theorem ofDecimal?_eq_some (hfinite : x.isFinite = true) (hpos : x.magnitude ≠ 0) {d : Decimal}
    (h : x.Covers d.value) : ofDecimal? x.negative d.digits d.exponent = some x := by
  have hleast := h.le_value hpos
  have hmost := h.value_lt hfinite
  have hdigits : d.digits ≠ 0 := by
    intro hzero
    have hvalue := h.pos hpos
    simp [Decimal.value, hzero] at hvalue
  have hsmall : ¬(d.digits = 0 ∨ d.exponent < -400 - (Nat.log2 d.digits : Int)) := by
    rintro (hzero | hbelow)
    · exact hdigits hzero
    · exact absurd (Decimal.value_lt_of_exponent_lt hbelow) (not_lt.2 hleast)
  have hlarge : ¬400 < d.exponent := by
    intro habove
    exact absurd (Decimal.lt_value_of_lt_exponent hdigits habove) (not_lt.2 hmost.le)
  have hquotient : ((d.digits * power 10 d.exponent : Nat) : ℚ) / power 10 (-d.exponent) =
      d.value := by
    have hten : (power 10 d.exponent : ℚ) / power 10 (-d.exponent) = 10 ^ d.exponent :=
      power_div_power (by decide) _
    rw [Nat.cast_mul, mul_div_assoc, hten, Decimal.value]
  have hrounded : roundRatio (d.digits * power 10 d.exponent) (power 10 (-d.exponent)) =
      x.magnitude :=
    Covers.roundRatio_eq (hquotient.symm ▸ h) hpos (power_pos (by decide) _)
  have hbelow : x.magnitude < infinity := by simpa [isFinite] using hfinite
  rw [ofDecimal?, if_neg hsmall, if_neg hlarge]
  dsimp only
  rw [hrounded, if_pos hbelow, ofMagnitude_magnitude]

end Binary64

end TraceLog
