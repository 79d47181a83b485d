import TraceLog.Number.Shortest

/-!
# TraceLog.Number.Precision

Floating-point numbers from their digits.

A reader takes either the number nearest to a decimal, or one nearby that is
found with the arithmetic of the format.  The second way keeps the leading
digits in 64 bits, and it rounds twice: the digits, and then their product with
a power of ten or their quotient by one.  So it may miss the nearest number by
some places, and a number need not be read back from its own text.

* `Precision.convert?` — the number that a reader takes, at either precision;
* `Decimal.leading` — the digits that are kept in 64 bits;
* `Binary64.scale?` — a number times a power of ten, with one rounding.
-/

namespace TraceLog

/-- How precisely the text of a floating-point number is read. -/
inductive Precision where
  /-- As the nearest number. -/
  | nearest
  /-- As a number nearby. -/
  | bestEffort
  deriving DecidableEq, Repr

namespace Decimal

/-- Takes digits behind those of a number, up to the first one with which the
number would not fit 64 bits.  Gives that number and the digits left over. -/
def keep (n : Nat) : List Char → Nat × List Char
  | [] => (n, [])
  | c :: cs =>
    let next := Nat.ofDigitChars 10 [c] n
    if next < 18446744073709551616 then keep next cs else (n, c :: cs)

/-- The leading digits of a number, as many as fit 64 bits.  Digits before the
point that are left over count as zeros, and those behind it not at all. -/
def leading (whole fraction : List Char) : Decimal :=
  let (n, beyond) := keep 0 whole
  let (n, rest) := keep n fraction
  ⟨n, (beyond.length : Int) - (fraction.length - rest.length : Nat)⟩

end Decimal

namespace Binary64

/-! ## Powers of ten -/

/-- The greatest exponent of a power of ten that is in range. -/
def lastTenPower : Nat := 308

/-- The number nearest to `10 ^ n`. -/
def tenPower (n : Nat) : Binary64 := ofMagnitude false (roundRatio (power 10 n) 1)

/-- The magnitude of a product, unless it is too large. -/
def product? (x y : Binary64) : Option Binary64 :=
  let magnitude := roundRatio (x.ratio.1 * y.ratio.1) (x.ratio.2 * y.ratio.2)
  if magnitude < infinity then some (ofMagnitude false magnitude) else none

/-- The magnitude of a quotient by a number not below one. -/
def quotient (x y : Binary64) : Binary64 :=
  ofMagnitude false (roundRatio (x.ratio.1 * y.ratio.2) (x.ratio.2 * y.ratio.1))

/-- Divides so many times by the greatest power of ten, unless nothing is left
before. -/
def lower : Nat → Binary64 → Binary64
  | 0, x => x
  | n + 1, x => if x.magnitude = 0 then x else lower n (x.quotient (tenPower lastTenPower))

/-- The magnitude of `x * 10 ^ exponent`, unless it is too large.  A quotient by
a power that is out of range is taken in steps. -/
def scale? (x : Binary64) (exponent : Int) : Option Binary64 :=
  if exponent < 0 then
    let places := exponent.natAbs
    let steps := (places - 1) / lastTenPower
    some ((lower steps x).quotient (tenPower (places - steps * lastTenPower)))
  else if exponent ≤ lastTenPower then x.product? (tenPower exponent.toNat)
  else if x.magnitude = 0 then some x
  else none

end Binary64

namespace Precision

/-- The number with these digits before and behind the point, times
`10 ^ exponent`; `none` if it is out of range. -/
def convert? (p : Precision) (negative : Bool) (whole fraction : List Char) (exponent : Int) :
    Option Binary64 :=
  match p with
  | .nearest =>
    Binary64.ofDecimal? negative (Nat.ofDigitChars 10 (whole ++ fraction) 0)
      (exponent - fraction.length)
  | .bestEffort =>
    let d := Decimal.leading whole fraction
    ((Binary64.ofInt d.digits).scale? (d.exponent + exponent)).map fun x =>
      .ofMagnitude negative x.magnitude

end Precision

end TraceLog
