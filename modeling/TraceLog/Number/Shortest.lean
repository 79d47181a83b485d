import TraceLog.Number.Binary64

/-!
# TraceLog.Number.Shortest

The shortest decimal that identifies a finite number.

The reals that round to a number form an interval around it: up to halfway to
each neighbour, the ends included exactly when the significand is even.  A
decimal identifies the number when it lies in that interval
(`Binary64.identifiedBy`).  For one digit, two digits and so on, only the two
neighbours of the number on the grid of that many digits can be in the
interval first, so the search tests those two in exact integer arithmetic and
stops at the first grid with a hit.  Of two hits the nearer one is taken, and
an exact tie is settled by a `TieRule`.
-/

namespace TraceLog

/-- The decimal `digits * 10 ^ exponent`. -/
structure Decimal where
  digits : Nat
  exponent : Int
  deriving DecidableEq, Repr

/-- Which of two equally near decimals is taken: the one whose last digit is
even, or the larger one. -/
inductive TieRule where
  | toEven
  | upward
  deriving DecidableEq, Repr

namespace Decimal

/-- Moves trailing zeros of the digits into the exponent, at most `fuel`. -/
def stripZeros : Nat → Decimal → Decimal
  | 0, d => d
  | fuel + 1, d =>
    if d.digits % 10 = 0 ∧ d.digits ≠ 0 then stripZeros fuel ⟨d.digits / 10, d.exponent + 1⟩ else d

/-- Compares `a * 10 ^ i` with `n * 2 ^ j`, exactly. -/
def compareBinary (a : Nat) (i : Int) (n : Nat) (j : Int) : Ordering :=
  compare (a * power 10 i * power 2 (-j)) (n * power 2 j * power 10 (-i))

end Decimal

namespace Binary64

/-- Whether the neighbour below is half as far away as the neighbour above:
at a power of two, where the spacing changes. -/
def narrowBelow (x : Binary64) : Bool := x.fraction == 0 && decide (1 < x.exponentField)

/-- Whether a decimal lies among the reals that round to the number. -/
def identifiedBy (x : Binary64) (d : Decimal) : Bool :=
  let low := if x.narrowBelow then 4 * x.significand - 1 else 4 * x.significand - 2
  let high := 4 * x.significand + 2
  let closed := x.significand % 2 == 0
  let atLow := Decimal.compareBinary d.digits d.exponent low (x.exponent - 2)
  let atHigh := Decimal.compareBinary d.digits d.exponent high (x.exponent - 2)
  (atLow == .gt || closed && atLow == .eq) && (atHigh == .lt || closed && atHigh == .eq)

/-- The least `k` from `k` on, at most `fuel` steps away, for which the number
is below `10 ^ k`. -/
def leastScale (x : Binary64) : Nat → Int → Int
  | 0, k => k
  | fuel + 1, k =>
    if Decimal.compareBinary 1 k x.significand x.exponent == .gt then k
    else leastScale x fuel (k + 1)

/-- The least `k` for which a positive number is below `10 ^ k`.  The binary
logarithm gives a lower bound that is at most two too small. -/
def scale (x : Binary64) : Int :=
  let log2 : Int := (Nat.log2 x.significand : Int) + x.exponent
  leastScale x 4 (Int.fdiv (log2 * 1233) 4096)

/-- The neighbour of the number on the grid `10 ^ g` that identifies it, if one
of the two does. -/
def onGrid (x : Binary64) (tie : TieRule) (g : Int) : Option Decimal :=
  let num := x.significand * power 2 x.exponent * power 10 (-g)
  let den := power 2 (-x.exponent) * power 10 g
  let low : Decimal := ⟨num / den, g⟩
  let high : Decimal := ⟨num / den + 1, g⟩
  match x.identifiedBy low, x.identifiedBy high with
  | false, false => none
  | true, false => some low
  | false, true => some high
  | true, true =>
    match compare (2 * (num % den)) den with
    | .lt => some low
    | .gt => some high
    | .eq => some (if tie = .toEven ∧ low.digits % 2 = 0 then low else high)

/-- The decimal with the value of a finite number. -/
def exactDecimal (x : Binary64) : Decimal :=
  ⟨x.significand * power 2 x.exponent * power 5 (-x.exponent), min x.exponent 0⟩

/-- The decimal with the fewest digits that identifies a finite number other
than zero, the nearest of those.  Seventeen digits always identify it; should
none of the grids answer, its exact value stands in. -/
def shortest (x : Binary64) (tie : TieRule) : Decimal :=
  let k := x.scale
  match (List.range 17).findSome? (fun (n : Nat) => x.onGrid tie (k - (n + 1 : Nat))) with
  | some d => Decimal.stripZeros 17 d
  | none => x.exactDecimal

end Binary64

end TraceLog
