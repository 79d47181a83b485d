import Mathlib.Tactic.FieldSimp
import Mathlib.Tactic.NormNum
import Mathlib.Tactic.Ring
import TraceLog.Proofs.Number.Value

/-!
# TraceLog.Proofs.Number.Rounding

What rounding to nearest comes to.

The reals that round to a number lie around it: up to half a place above, and
up to half a place below, or a quarter where the spacing changes.  Each of them
is rounded to that number; the two ends are where the significand is even.

* `Binary64.magnitude_eq` — a magnitude put together from its fields;
* `Binary64.floorLog2_spec` — the binary logarithm of a quotient;
* `Binary64.Covers` — the numbers that round to a pattern;
* `Binary64.Covers.roundRatio_eq` — they do;
* `Binary64.isFinite_ofInt` — no integer of a document becomes infinite.
-/

namespace TraceLog

namespace Binary64

/-! ## Fields -/

variable {x : Binary64}

theorem exponentPlace_eq : exponentPlace = 2 ^ 52 := by decide

theorem fraction_lt (x : Binary64) : x.fraction < exponentPlace := Nat.mod_lt _ (by decide)

/-- The exponent field counts the places above the fraction. -/
theorem fields_eq (x : Binary64) :
    exponentPlace * x.exponentField + x.fraction = x.magnitude :=
  Nat.div_add_mod x.magnitude exponentPlace

/-- A magnitude is the significand at its place. -/
theorem magnitude_eq (x : Binary64) :
    x.magnitude = x.significand + (x.exponent + 1074).toNat * exponentPlace := by
  have hfields := x.fields_eq
  by_cases hfield : x.exponentField = 0
  · simp [significand, exponent, hfield] at hfields ⊢
    omega
  · obtain ⟨field, hsucc⟩ : ∃ field, x.exponentField = field + 1 := ⟨_, (Nat.succ_pred hfield).symm⟩
    have hplace : ((x.exponentField : Int) - 1075 + 1074).toNat = field := by omega
    rw [significand, exponent, if_neg hfield, if_neg hfield, hplace, ← hfields, hsucc]
    ring

theorem significand_lt (x : Binary64) : x.significand < 2 ^ 53 := by
  have hfraction := x.fraction_lt
  rw [exponentPlace_eq] at hfraction
  rw [significand, exponentPlace_eq]
  split <;> omega

/-- A number other than zero has a significand. -/
theorem significand_pos (hpos : x.magnitude ≠ 0) : 0 < x.significand := by
  have hfields := x.fields_eq
  by_cases hfield : x.exponentField = 0
  · rw [hfield] at hfields
    rw [significand, if_pos hfield]
    omega
  · have hplace : 0 < exponentPlace := by decide
    rw [significand, if_neg hfield]
    omega

theorem exponent_ge (x : Binary64) : -1074 ≤ x.exponent := by
  rw [exponent]
  split <;> omega

theorem exponent_le (hfinite : x.isFinite = true) : x.exponent ≤ 971 := by
  have hbelow : x.exponentField < 2047 := by
    rw [isFinite, decide_eq_true_eq, infinity, Nat.mul_comm] at hfinite
    exact Nat.div_lt_of_lt_mul hfinite
  rw [exponent]
  split <;> omega

/-- A significand is below the next power of two by one at least. -/
theorem significand_add_one_le (x : Binary64) : (x.significand : ℚ) + 1 ≤ 2 ^ (53 : Int) := by
  exact_mod_cast x.significand_lt

theorem one_le_significand (hpos : x.magnitude ≠ 0) : (1 : ℚ) ≤ x.significand := by
  exact_mod_cast significand_pos hpos

/-- The hidden bit is there unless the exponent is the least one. -/
theorem le_significand (h : -1074 < x.exponent) : 2 ^ 52 ≤ x.significand := by
  rw [exponent] at h
  rw [significand, exponentPlace_eq]
  split at h
  · omega
  · next hfield =>
      rw [if_neg hfield]
      omega

/-- The spacing changes at the least significand with a hidden bit, but for
the least exponent, where it is the same on both sides. -/
theorem narrowBelow_iff (x : Binary64) :
    x.narrowBelow = true ↔ x.significand = 2 ^ 52 ∧ -1074 < x.exponent := by
  have hfraction := x.fraction_lt
  rw [exponentPlace_eq] at hfraction
  rw [narrowBelow, significand, exponent, exponentPlace_eq, Bool.and_eq_true, beq_iff_eq,
    decide_eq_true_eq]
  split <;> omega

/-! ## Nearest integers -/

/-- A quotient no farther from an integer than a half is rounded to it; one
that is exactly a half away only if the integer is even. -/
theorem roundDiv_eq {num den n : Nat} (hden : 0 < den) (hlow : 2 * n * den ≤ 2 * num + den)
    (hhigh : 2 * num ≤ 2 * n * den + den)
    (htie : 2 * n * den = 2 * num + den ∨ 2 * num = 2 * n * den + den → n % 2 = 0) :
    roundDiv num den = n := by
  have hdivision : num / den * den + num % den = num := Nat.div_add_mod' num den
  have hrest : num % den < den := Nat.mod_lt _ hden
  rw [roundDiv]
  generalize num / den = low at *
  generalize num % den = rest at *
  subst hdivision
  have hnear : low = n ∨ low + 1 = n := by
    by_contra hfar
    rcases Nat.lt_or_ge n low with habove | hbelow
    · have hstep := Nat.mul_le_mul_right den (show n + 1 ≤ low from habove)
      rw [Nat.add_mul] at hstep
      linarith
    · have hstep := Nat.mul_le_mul_right den (show low + 2 ≤ n by omega)
      rw [Nat.add_mul] at hstep
      linarith
  rcases hnear with rfl | rfl
  · have hhalf : 2 * rest ≤ den := by linarith
    rcases hhalf.lt_or_eq with hless | heven
    · rw [Nat.compare_eq_lt.2 hless]
    · rw [Nat.compare_eq_eq.2 heven]
      have hparity := htie (.inr (by linarith))
      dsimp only
      omega
  · have hexpand : 2 * (low + 1) * den = 2 * (low * den) + 2 * den := by ring
    have hhalf : den ≤ 2 * rest := by omega
    rcases hhalf.lt_or_eq with hmore | heven
    · rw [Nat.compare_eq_gt.2 hmore]
    · rw [Nat.compare_eq_eq.2 heven.symm]
      have hparity := htie (.inl (by omega))
      dsimp only
      omega

/-- `roundDiv_eq` for the quotient as a number. -/
theorem roundDiv_of_near {num den n : Nat} (hden : 0 < den) (hlow : (n : ℚ) - 1 / 2 ≤ num / den)
    (hhigh : (num : ℚ) / den ≤ n + 1 / 2)
    (htie : (num : ℚ) / den = n - 1 / 2 ∨ (num : ℚ) / den = n + 1 / 2 → n % 2 = 0) :
    roundDiv num den = n := by
  have hpos : (0 : ℚ) < den := by exact_mod_cast hden
  rw [le_div_iff₀ hpos] at hlow
  rw [div_le_iff₀ hpos] at hhigh
  rw [div_eq_iff hpos.ne', div_eq_iff hpos.ne'] at htie
  refine roundDiv_eq hden ?_ ?_ ?_
  · have hcast : (2 * n * den : ℚ) ≤ 2 * num + den := by linarith
    exact_mod_cast hcast
  · have hcast : (2 * num : ℚ) ≤ 2 * n * den + den := by linarith
    exact_mod_cast hcast
  · rintro (heq | heq)
    · have hcast : (2 * n * den : ℚ) = 2 * num + den := by exact_mod_cast heq
      exact htie (.inl (by linarith))
    · have hcast : (2 * num : ℚ) = 2 * n * den + den := by exact_mod_cast heq
      exact htie (.inr (by linarith))

/-! ## Binary logarithms -/

/-- The binary logarithm of a quotient: the greatest power of two that is not
above it. -/
theorem floorLog2_spec {num den : Nat} (hnum : 0 < num) (hden : 0 < den) :
    (2 : ℚ) ^ floorLog2 num den ≤ num / den ∧
      (num : ℚ) / den < 2 ^ (floorLog2 num den + 1) := by
  have hpos : (0 : ℚ) < den := by exact_mod_cast hden
  have hnumLow : (2 : ℚ) ^ (Nat.log2 num : Int) ≤ num := by
    exact_mod_cast Nat.log2_self_le hnum.ne'
  have hnumHigh : (num : ℚ) < 2 ^ ((Nat.log2 num : Int) + 1) := by
    exact_mod_cast Nat.lt_log2_self (n := num)
  have hdenLow : (2 : ℚ) ^ (Nat.log2 den : Int) ≤ den := by
    exact_mod_cast Nat.log2_self_le hden.ne'
  have hdenHigh : (den : ℚ) < 2 ^ ((Nat.log2 den : Int) + 1) := by
    exact_mod_cast Nat.lt_log2_self (n := den)
  have hcompare := mul_power_lt_mul_power_iff (show 0 < 2 by decide)
    ((Nat.log2 num : Int) - Nat.log2 den) num hden
  rw [floorLog2]
  generalize (Nat.log2 num : Int) = numLog at *
  generalize (Nat.log2 den : Int) = denLog at *
  have hbelow : (num : ℚ) / den < 2 ^ (numLog - denLog + 1) := by
    have hshift : (2 : ℚ) ^ (numLog + 1) = 2 ^ (numLog - denLog + 1) * 2 ^ denLog := by
      rw [← zpow_add₀ two_ne_zero]
      ring_nf
    rw [div_lt_iff₀ hpos]
    calc (num : ℚ) < 2 ^ (numLog - denLog + 1) * 2 ^ denLog := hshift ▸ hnumHigh
      _ ≤ 2 ^ (numLog - denLog + 1) * den := by gcongr
  have habove : (2 : ℚ) ^ (numLog - denLog - 1) ≤ num / den := by
    have hshift : (2 : ℚ) ^ numLog = 2 ^ (numLog - denLog - 1) * 2 ^ (denLog + 1) := by
      rw [← zpow_add₀ two_ne_zero]
      ring_nf
    rw [le_div_iff₀ hpos]
    calc (2 : ℚ) ^ (numLog - denLog - 1) * den ≤ 2 ^ (numLog - denLog - 1) * 2 ^ (denLog + 1) := by
          gcongr
      _ ≤ num := hshift ▸ hnumLow
  by_cases hless : num * power 2 (-(numLog - denLog)) < den * power 2 (numLog - denLog)
  · rw [if_pos hless, Int.sub_add_cancel]
    exact ⟨habove, hcompare.1 hless⟩
  · rw [if_neg hless]
    exact ⟨not_lt.1 (mt hcompare.2 hless), hbelow⟩

/-- A quotient below a power of two has a logarithm below its exponent; the
quotient is measured in a unit. -/
theorem floorLog2_lt {num den : Nat} (hnum : 0 < num) (hden : 0 < den) {unit k : Int}
    (h : (num : ℚ) / den / 2 ^ unit < 2 ^ k) : floorLog2 num den < unit + k := by
  have hunit : (0 : ℚ) < 2 ^ unit := by positivity
  rw [div_lt_iff₀ hunit, ← zpow_add₀ two_ne_zero, Int.add_comm] at h
  have hspec := (floorLog2_spec hnum hden).1.trans_lt h
  rwa [zpow_lt_zpow_iff_right₀ one_lt_two] at hspec

/-- A quotient that is not below a power of two has a logarithm not below its
exponent; the quotient is measured in a unit. -/
theorem le_floorLog2 {num den : Nat} (hnum : 0 < num) (hden : 0 < den) {unit k : Int}
    (h : (2 : ℚ) ^ k ≤ num / den / 2 ^ unit) : unit + k ≤ floorLog2 num den := by
  have hunit : (0 : ℚ) < 2 ^ unit := by positivity
  rw [le_div_iff₀ hunit, ← zpow_add₀ two_ne_zero, Int.add_comm] at h
  have hspec := h.trans_lt (floorLog2_spec hnum hden).2
  rw [zpow_lt_zpow_iff_right₀ one_lt_two] at hspec
  omega

/-! ## Rounding -/

/-- How many places of the significand the reals that round to the number
reach down. -/
def reach (x : Binary64) : ℚ := if x.narrowBelow then 1 / 4 else 1 / 2

/-- The number is the nearest one to a positive value, or the even one of two
that are.  The value is measured in places of the significand. -/
structure Covers (x : Binary64) (value : ℚ) : Prop where
  low : x.significand - x.reach ≤ value / 2 ^ x.exponent
  high : value / 2 ^ x.exponent ≤ x.significand + 1 / 2
  even : value / 2 ^ x.exponent = x.significand - x.reach ∨
    value / 2 ^ x.exponent = x.significand + 1 / 2 → x.significand % 2 = 0

theorem reach_le (x : Binary64) : x.reach ≤ 1 / 2 := by
  rw [reach]
  split <;> norm_num

/-- A quotient with the powers of its last place on both sides. -/
theorem scaled_quotient (num den : Nat) (unit : Int) :
    ((num * power 2 (-unit) : Nat) : ℚ) / (den * power 2 unit : Nat) =
      num / den / 2 ^ unit := by
  have hpower : (power 2 unit : ℚ) / power 2 (-unit) = 2 ^ unit :=
    power_div_power (by decide) unit
  rw [← hpower, Nat.cast_mul, Nat.cast_mul, div_div_div_eq]

/-- A quotient is rounded at the last place that its logarithm calls for. -/
theorem roundRatio_eq {num den : Nat} (hnum : 0 < num) (hden : 0 < den) {unit : Int} {n : Nat}
    (hunit : max (floorLog2 num den - 52) (-1074) = unit)
    (hlow : (n : ℚ) - 1 / 2 ≤ num / den / 2 ^ unit)
    (hhigh : (num : ℚ) / den / 2 ^ unit ≤ n + 1 / 2)
    (htie : (num : ℚ) / den / 2 ^ unit = n - 1 / 2 ∨ (num : ℚ) / den / 2 ^ unit = n + 1 / 2 →
      n % 2 = 0) :
    roundRatio num den = n + (unit + 1074).toNat * exponentPlace := by
  have hden' : 0 < den * power 2 unit := Nat.mul_pos hden (power_pos (by decide) _)
  rw [← scaled_quotient] at hlow hhigh htie
  rw [roundRatio, if_neg hnum.ne', hunit]
  dsimp only
  rw [roundDiv_of_near hden' hlow hhigh htie]

namespace Covers

variable {num den : Nat}

/-- What a number covers is positive. -/
theorem pos {value : ℚ} (h : x.Covers value) (hpos : x.magnitude ≠ 0) : 0 < value := by
  have hsignificand := one_le_significand hpos
  have hlow := h.low
  have hreach := x.reach_le
  have hquotient : 0 < value / 2 ^ x.exponent := by linarith
  have hscale : (0 : ℚ) < 2 ^ x.exponent := by positivity
  rwa [div_pos_iff_of_pos_right hscale] at hquotient

theorem num_pos (h : x.Covers (num / den)) (hpos : x.magnitude ≠ 0) (hden : 0 < den) :
    0 < num := by
  have hden' : (0 : ℚ) < den := by exact_mod_cast hden
  have hquotient := h.pos hpos
  rw [div_pos_iff_of_pos_right hden'] at hquotient
  exact_mod_cast hquotient

/-- At half a place below, the significand is even, too. -/
theorem even_of_eq_sub_half {value : ℚ} (h : x.Covers value)
    (hdown : value / 2 ^ x.exponent = x.significand - 1 / 2) : x.significand % 2 = 0 := by
  have hlow := h.low
  have hreach : x.reach = 1 / 2 := le_antisymm x.reach_le (by linarith)
  exact h.even (.inl (hreach ▸ hdown))

/-- The logarithm does not reach beyond the significand. -/
theorem floorLog2_lt (h : x.Covers (num / den)) (hpos : x.magnitude ≠ 0) (hden : 0 < den) :
    floorLog2 num den < x.exponent + 53 := by
  have hsignificand := x.significand_add_one_le
  have hhigh := h.high
  exact Binary64.floorLog2_lt (h.num_pos hpos hden) hden (by linarith)

/-- Where the quotient has all digits of the significand, or there are no finer
places, it is rounded at the last place of the number. -/
theorem roundRatio_eq_of_full (h : x.Covers (num / den)) (hpos : x.magnitude ≠ 0)
    (hden : 0 < den)
    (hfull : x.exponent = -1074 ∨ (2 : ℚ) ^ (52 : Int) ≤ num / den / 2 ^ x.exponent) :
    roundRatio num den = x.magnitude := by
  have hnum := h.num_pos hpos hden
  have htop := h.floorLog2_lt hpos hden
  have hleast := x.exponent_ge
  have hunit : max (floorLog2 num den - 52) (-1074) = x.exponent := by
    rcases hfull with hexponent | hfull
    · omega
    · have hbottom := le_floorLog2 hnum hden hfull
      omega
  have hlow := h.low
  have hreach := x.reach_le
  rw [magnitude_eq]
  refine Binary64.roundRatio_eq hnum hden hunit (by linarith) h.high ?_
  rintro (hdown | hup)
  · exact h.even_of_eq_sub_half hdown
  · exact h.even (.inr hup)

/-- A quotient with fewer digits is just below the least significand with a
hidden bit. -/
theorem significand_eq (h : x.Covers (num / den)) (hexponent : -1074 < x.exponent)
    (hbelow : (num : ℚ) / den / 2 ^ x.exponent < 2 ^ (52 : Int)) :
    x.significand = 2 ^ 52 ∧ x.reach = 1 / 4 := by
  have hleast : 2 ^ 52 ≤ x.significand := le_significand hexponent
  have hmost : (x.significand : ℚ) < 2 ^ 52 + 1 := by
    have hlow := h.low
    have hreach := x.reach_le
    have hbelow : (num : ℚ) / den / 2 ^ x.exponent < 2 ^ 52 := by exact_mod_cast hbelow
    linarith
  have hmost : x.significand < 2 ^ 52 + 1 := by exact_mod_cast hmost
  have heq : x.significand = 2 ^ 52 := by omega
  exact ⟨heq, if_pos ((narrowBelow_iff x).2 ⟨heq, hexponent⟩)⟩

/-- Such a quotient is rounded one place further down, and up. -/
theorem roundRatio_eq_of_below (h : x.Covers (num / den)) (hpos : x.magnitude ≠ 0)
    (hden : 0 < den) (hexponent : -1074 < x.exponent)
    (hbelow : (num : ℚ) / den / 2 ^ x.exponent < 2 ^ (52 : Int)) :
    roundRatio num den = x.magnitude := by
  have hnum := h.num_pos hpos hden
  obtain ⟨hhidden, hreach⟩ := h.significand_eq hexponent hbelow
  have hlow := h.low
  rw [hhidden, hreach] at hlow
  have hbottom : x.exponent + 51 ≤ floorLog2 num den := by
    refine le_floorLog2 hnum hden ?_
    norm_num at hlow ⊢
    linarith
  have htop := Binary64.floorLog2_lt hnum hden hbelow
  have hunit : max (floorLog2 num den - 52) (-1074) = x.exponent - 1 := by omega
  have hfiner : (num : ℚ) / den / 2 ^ (x.exponent - 1) = 2 * (num / den / 2 ^ x.exponent) := by
    rw [zpow_sub_one₀ two_ne_zero]
    field_simp
  have hrounded : roundRatio num den = 2 ^ 53 + (x.exponent - 1 + 1074).toNat * exponentPlace := by
    refine Binary64.roundRatio_eq hnum hden hunit ?_ ?_ (fun _ => by norm_num)
    · rw [hfiner]
      norm_num at hlow ⊢
      linarith
    · rw [hfiner]
      norm_num at hbelow ⊢
      linarith
  have hplaces : (x.exponent + 1074).toNat = (x.exponent - 1 + 1074).toNat + 1 := by omega
  rw [hrounded, magnitude_eq, hhidden, hplaces, exponentPlace_eq]
  ring

/-- **What a number covers is rounded to it.** -/
theorem roundRatio_eq (h : x.Covers (num / den)) (hpos : x.magnitude ≠ 0) (hden : 0 < den) :
    roundRatio num den = x.magnitude := by
  have hleast := x.exponent_ge
  by_cases hfull : x.exponent = -1074 ∨ (2 : ℚ) ^ (52 : Int) ≤ num / den / 2 ^ x.exponent
  · exact h.roundRatio_eq_of_full hpos hden hfull
  · rw [not_or, not_le] at hfull
    exact h.roundRatio_eq_of_below hpos hden (by omega) hfull.2

end Covers

/-! ## Finite results -/

/-- A quotient is rounded to one of the integers next to it. -/
theorem roundDiv_le (num den : Nat) : roundDiv num den ≤ num / den + 1 := by
  simp only [roundDiv]
  split <;> omega

/-- A quotient that is not near the end of the range is rounded to a finite
number. -/
theorem roundRatio_lt {num den : Nat} (hden : 0 < den) (h : (num : ℚ) / den < 2 ^ (1023 : Int)) :
    roundRatio num den < infinity := by
  by_cases hzero : num = 0
  · rw [hzero, roundRatio, if_pos rfl]
    decide
  · have hnum : 0 < num := Nat.pos_of_ne_zero hzero
    have hspec := floorLog2_spec hnum hden
    have hlog : floorLog2 num den < 1023 := by
      have hlt := hspec.1.trans_lt h
      rwa [zpow_lt_zpow_iff_right₀ one_lt_two] at hlt
    obtain ⟨unit, hunit⟩ : ∃ unit, max (floorLog2 num den - 52) (-1074) = unit := ⟨_, rfl⟩
    -- The significand is below `2 ^ 53`.
    have hplaces : (num : ℚ) / den / 2 ^ unit < 2 ^ (53 : Int) := by
      rw [div_lt_iff₀ (by positivity), ← zpow_add₀ two_ne_zero]
      exact hspec.2.trans_le (zpow_le_zpow_right₀ one_le_two (by omega))
    have hden' : 0 < den * power 2 unit := Nat.mul_pos hden (power_pos (by decide) _)
    have hquotient : num * power 2 (-unit) / (den * power 2 unit) < 2 ^ 53 := by
      rw [← scaled_quotient, div_lt_iff₀ (by exact_mod_cast hden')] at hplaces
      rw [Nat.div_lt_iff_lt_mul hden']
      exact_mod_cast hplaces
    have hround := roundDiv_le (num * power 2 (-unit)) (den * power 2 unit)
    rw [roundRatio, if_neg hzero, hunit]
    dsimp only
    simp only [infinity, exponentPlace]
    omega

/-- A sign leaves the magnitude as it is. -/
theorem magnitude_ofMagnitude (negative : Bool) {magnitude : Nat} (h : magnitude < signPlace) :
    (ofMagnitude negative magnitude).magnitude = magnitude := by
  rw [signPlace] at h
  cases negative <;> simp only [ofMagnitude, Binary64.magnitude, signPlace, UInt64.toNat_ofNat']
  · simp only [Bool.false_eq_true, if_false]
    omega
  · simp only [if_true]
    omega

/-- The integers of documents become finite numbers. -/
theorem isFinite_ofInt {n : Int} (h : n.natAbs ≤ 2 ^ 64) : (ofInt n).isFinite = true := by
  have hlt : roundRatio n.natAbs 1 < infinity := by
    refine roundRatio_lt (by decide) ?_
    have hle : (n.natAbs : ℚ) ≤ 2 ^ (64 : Int) := by exact_mod_cast h
    rw [Nat.cast_one, div_one]
    exact hle.trans_lt (zpow_lt_zpow_right₀ one_lt_two (by decide))
  have hbound : infinity ≤ signPlace := by decide
  rw [isFinite, ofInt, magnitude_ofMagnitude _ (hlt.trans_le hbound)]
  exact decide_eq_true hlt

end Binary64

end TraceLog
