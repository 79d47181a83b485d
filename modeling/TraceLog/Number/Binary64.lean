/-!
# TraceLog.Number.Binary64

Binary floating-point numbers of 64 bits, kept as their bit patterns.

A pattern is a sign bit, eleven exponent bits and fifty-two fraction bits.
All arithmetic here is exact: a finite number is `significand * 2 ^ exponent`
over `Nat` and `Int`, a comparison never leaves the integers, and the only
rounding is `roundRatio`, to the nearest number with ties to the even
significand.

* `Binary64.key` — an integer that orders the patterns as numbers;
* `Binary64.numEq` / `Binary64.numLt` — numeric comparison, in which a NaN
  is related to nothing and both zeros are equal;
* `Binary64.exceedsRatio` — comparison with a quotient of naturals;
* `Binary64.ofDecimal?` — the number nearest to a decimal;
* `Binary64.ofBinary32` — exact widening of a 32-bit pattern.
-/

namespace TraceLog

/-- `base ^ exponent`; `1` for a negative exponent.  So `n * power b e` over
`power b (-e)` is `n * b ^ e` as a quotient of naturals. -/
def power (base : Nat) (exponent : Int) : Nat := Nat.pow base exponent.toNat

/-- A 64-bit floating-point number, as its bit pattern. -/
structure Binary64 where
  bits : UInt64
  deriving DecidableEq, Repr, Inhabited

namespace Binary64

/-! ## Fields of a pattern -/

/-- The place value of the sign bit, `2 ^ 63`. -/
def signPlace : Nat := 9223372036854775808

/-- The place value of the lowest exponent bit, `2 ^ 52`. -/
def exponentPlace : Nat := 4503599627370496

/-- The sign bit. -/
def negative (x : Binary64) : Bool := decide (signPlace ≤ x.bits.toNat)

/-- The pattern without its sign bit. -/
def magnitude (x : Binary64) : Nat := x.bits.toNat % signPlace

/-- The eleven exponent bits. -/
def exponentField (x : Binary64) : Nat := x.magnitude / exponentPlace

/-- The fifty-two fraction bits. -/
def fraction (x : Binary64) : Nat := x.magnitude % exponentPlace

/-- The magnitude of the infinities: all exponent bits set, no fraction bit.
Everything above it is a NaN. -/
def infinity : Nat := 2047 * exponentPlace

/-- Neither an infinity nor a NaN. -/
def isFinite (x : Binary64) : Bool := decide (x.magnitude < infinity)

/-- Not a number. -/
def isNaN (x : Binary64) : Bool := decide (infinity < x.magnitude)

/-- A pattern is finite, an infinity, or a NaN. -/
theorem isNaN_eq_false_of_isFinite {x : Binary64} (h : x.isFinite = true) : x.isNaN = false := by
  simp only [isFinite, isNaN, decide_eq_true_eq, decide_eq_false_iff_not] at *
  omega

/-- The integer factor of a finite number: the fraction, with the hidden bit
in front unless the exponent field is zero. -/
def significand (x : Binary64) : Nat :=
  if x.exponentField = 0 then x.fraction else exponentPlace + x.fraction

/-- The power of two that scales the significand of a finite number. -/
def exponent (x : Binary64) : Int :=
  if x.exponentField = 0 then -1074 else (x.exponentField : Int) - 1075

/-- The pattern of a sign and a magnitude. -/
def ofMagnitude (negative : Bool) (magnitude : Nat) : Binary64 :=
  ⟨UInt64.ofNat (magnitude + if negative then signPlace else 0)⟩

/-! ## Comparison -/

/-- Magnitudes grow with the numbers they stand for, so the signed magnitude
orders all patterns that are no NaN; both zeros have key `0`. -/
def key (x : Binary64) : Int :=
  if x.negative then -(x.magnitude : Int) else (x.magnitude : Int)

/-- Numeric equality: a NaN equals nothing, and the two zeros are equal. -/
def numEq (x y : Binary64) : Bool := !x.isNaN && !y.isNaN && decide (x.key = y.key)

/-- Numeric order; false as soon as one side is a NaN. -/
def numLt (x y : Binary64) : Bool := !x.isNaN && !y.isNaN && decide (x.key < y.key)

theorem numEq_comm (x y : Binary64) : numEq x y = numEq y x := by
  simp only [numEq, Bool.and_comm (!x.isNaN), eq_comm (a := x.key)]

theorem numEq_trans {x y z : Binary64} (hxy : numEq x y = true) (hyz : numEq y z = true) :
    numEq x z = true := by
  simp only [numEq, Bool.and_eq_true, decide_eq_true_eq] at *
  exact ⟨⟨hxy.1.1, hyz.1.2⟩, hxy.2.trans hyz.2⟩

/-- Only a NaN differs from itself. -/
theorem numEq_self (x : Binary64) : numEq x x = !x.isNaN := by
  simp [numEq]

/-- The fraction `n / d` of a finite number, without its sign. -/
def ratio (x : Binary64) : Nat × Nat :=
  (x.significand * power 2 x.exponent, power 2 (-x.exponent))

/-- Whether `x` is above `num / den`, exactly; false for a NaN. -/
def exceedsRatio (x : Binary64) (num den : Nat) : Bool :=
  if x.isNaN || x.negative then false
  else if x.isFinite then decide (num * x.ratio.2 < x.ratio.1 * den)
  else true

/-! ## Rounding to nearest -/

/-- The quotient `num / den` rounded to an integer, a half to the even one. -/
def roundDiv (num den : Nat) : Nat :=
  let low := num / den
  match compare (2 * (num % den)) den with
  | .lt => low
  | .gt => low + 1
  | .eq => low + low % 2

/-- The largest `e` with `2 ^ e ≤ num / den`, for positive `num` and `den`. -/
def floorLog2 (num den : Nat) : Int :=
  let e : Int := (Nat.log2 num : Int) - Nat.log2 den
  if num * power 2 (-e) < den * power 2 e then e - 1 else e

/-- The magnitude nearest to `num / den`, a tie going to the even
significand.  The last place weighs `2 ^ unit`; adding the exponent field and
the significand as integers lets a significand that rounds up to the next
power of two carry into the field.  The result is `infinity` or more when the
quotient is too large. -/
def roundRatio (num den : Nat) : Nat :=
  if num = 0 then 0 else
    let unit : Int := max (floorLog2 num den - 52) (-1074)
    roundDiv (num * power 2 (-unit)) (den * power 2 unit) + (unit + 1074).toNat * exponentPlace

/-- The number nearest to `digits * 10 ^ exponent`, `none` where that would be
an infinity.  Exponents far outside the range of the format are decided
without computing the power. -/
def ofDecimal? (negative : Bool) (digits : Nat) (exponent : Int) : Option Binary64 :=
  if digits = 0 ∨ exponent < -400 - (Nat.log2 digits : Int) then some (ofMagnitude negative 0)
  else if 400 < exponent then none
  else
    let magnitude := roundRatio (digits * power 10 exponent) (power 10 (-exponent))
    if magnitude < infinity then some (ofMagnitude negative magnitude) else none

/-- The number nearest to an integer of at most 1023 bits. -/
def ofInt (n : Int) : Binary64 := ofMagnitude (decide (n < 0)) (roundRatio n.natAbs 1)

/-! ## Widening -/

/-- The number with the value of a 32-bit pattern.  Every finite value of the
narrow format is one of the wide format, so nothing is rounded; the fraction
of a NaN keeps its leading bits. -/
def ofBinary32 (bits : UInt32) : Binary64 :=
  let place := 8388608
  let field := bits.toNat / place % 256
  let fraction := bits.toNat % place
  let magnitude :=
    if field = 255 then infinity + fraction * power 2 29
    else if field = 0 then roundRatio fraction (power 2 149)
    else roundRatio ((place + fraction) * power 2 field) (power 2 150)
  ofMagnitude (decide (2147483648 ≤ bits.toNat)) magnitude

end Binary64

end TraceLog
