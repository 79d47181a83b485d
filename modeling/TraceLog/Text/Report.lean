import TraceLog.Number.Format

/-!
# TraceLog.Text.Report

Reports of other components on a document.

A report is a text and the place in the document that it speaks of.  A text
that ends in a place is taken apart, and the place is shown again behind the
text, its numbers without leading zeros; a place in line `0` is no place and is
not shown.

* `Report.ofText` — takes a text apart;
* `Report.message` — puts it together again.
-/

namespace TraceLog.Text

/-- A text on a document, and the place it speaks of. -/
structure Report where
  text : String
  /-- The line, from `1` on; no place is meant if it is `0`. -/
  line : UInt64
  column : UInt64
  deriving DecidableEq, Repr

namespace Report

/-- What stands in front of the line. -/
def lineMark : List Char := [' ', 'a', 't', ' ', 'l', 'i', 'n', 'e', ' ']

/-- What stands between the line and the column. -/
def columnMark : List Char := [' ', 'c', 'o', 'l', 'u', 'm', 'n', ' ']

/-- The text in front of the last mark, and that behind it. -/
def splitLast? (mark : List Char) : List Char → Option (List Char × List Char)
  | [] => none
  | c :: cs =>
    match splitLast? mark cs with
    | some (before, behind) => some (c :: before, behind)
    | none => if mark.isPrefixOf (c :: cs) then some ([], (c :: cs).drop mark.length) else none

/-- The text behind a mark. -/
def behind? (mark cs : List Char) : Option (List Char) :=
  if mark.isPrefixOf cs then some (cs.drop mark.length) else none

/-- A number of 64 bits from its digits. -/
def number? (digits : List Char) : Option UInt64 :=
  let n := Nat.ofDigitChars 10 digits 0
  if digits ≠ [] ∧ n < UInt64.size then some (UInt64.ofNat n) else none

/-- A line and a column, with nothing behind them. -/
def place? (cs : List Char) : Option (UInt64 × UInt64) := do
  let column ← behind? columnMark (cs.dropWhile Char.isDigit)
  if column.all Char.isDigit then
    return (← number? (cs.takeWhile Char.isDigit), ← number? column)
  else none

/-- Takes a text apart. -/
def ofText (text : String) : Report :=
  match splitLast? lineMark text.toList with
  | none => ⟨text, 0, 0⟩
  | some (before, behind) =>
    match place? behind with
    | none => ⟨text, 0, 0⟩
    | some (line, column) => ⟨String.ofList before, line, column⟩

/-- The text of a report, with its place. -/
def message (r : Report) : String :=
  if r.line = 0 then r.text
  else
    r.text ++ String.ofList
      (lineMark ++ decimal r.line.toNat ++ columnMark ++ decimal r.column.toNat)

end Report

end TraceLog.Text
