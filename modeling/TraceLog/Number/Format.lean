import TraceLog.Number.Shortest

/-!
# TraceLog.Number.Format

How a floating-point number is written.

Both notations write the fewest digits that identify the number.  The *data*
notation is that of the trace file: positional for leading digits from
`10 ^ -5` to below `10 ^ 16` and with at least one digit after the point,
otherwise with a signed exponent.  The *plain* notation is that of messages:
always positional, and without a point for whole numbers.
-/

namespace TraceLog

/-- The decimal digits of a natural number. -/
def decimal (n : Nat) : List Char := Nat.toDigits 10 n

/-- The decimal digits of an integer, behind a minus sign if it is negative. -/
def signedDecimal (n : Int) : List Char :=
  if n < 0 then '-' :: decimal n.natAbs else decimal n.natAbs

/-- The decisions of a notation. -/
structure NumberFormat where
  /-- Least exponent of the leading digit that is written positionally, if
  there is one. -/
  positionalFrom : Option Int
  /-- First exponent of the leading digit that is no longer written
  positionally, if there is one. -/
  positionalBelow : Option Int
  /-- Whether a whole number keeps `.0`. -/
  wholeZero : Bool
  tie : TieRule

namespace NumberFormat

/-- The notation of the trace file. -/
def data : NumberFormat := ⟨some (-5), some 16, true, .toEven⟩

/-- The notation of messages. -/
def plain : NumberFormat := ⟨none, none, false, .upward⟩

/-- Whether a leading digit of this exponent is written positionally. -/
def positional (f : NumberFormat) (lead : Int) : Bool :=
  f.positionalFrom.all (· ≤ lead) && f.positionalBelow.all (lead < ·)

/-- Digits and point, the leading digit having exponent `lead`. -/
def layout (f : NumberFormat) (digits : List Char) (lead : Int) : List Char :=
  if f.positional lead then
    if lead < 0 then '0' :: '.' :: List.replicate (-lead - 1).toNat '0' ++ digits
    else
      let whole := lead.toNat + 1
      if whole < digits.length then digits.take whole ++ '.' :: digits.drop whole
      else
        digits ++ List.replicate (whole - digits.length) '0' ++
          if f.wholeZero then ['.', '0'] else []
  else
    let mantissa := match digits with
      | d :: e :: rest => d :: '.' :: e :: rest
      | short => short
    mantissa ++ 'e' :: (if lead < 0 then '-' else '+') :: decimal lead.natAbs

/-- A finite number without its sign. -/
def unsigned (f : NumberFormat) (x : Binary64) : List Char :=
  if x.magnitude = 0 then f.layout ['0'] 0
  else
    let d := x.shortest f.tie
    let digits := decimal d.digits
    f.layout digits (d.exponent + digits.length - 1)

/-- The text of a number; the numbers that are not finite have names. -/
def render (f : NumberFormat) (x : Binary64) : List Char :=
  if x.isNaN then ['N', 'a', 'N']
  else (if x.negative then ['-'] else []) ++
    if x.isFinite then f.unsigned x else ['i', 'n', 'f']

end NumberFormat

end TraceLog
