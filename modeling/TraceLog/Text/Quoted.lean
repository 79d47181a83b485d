import TraceLog.Text.Printable

/-!
# TraceLog.Text.Quoted

Texts in quotation marks, as messages show them.

The quotation mark, the backslash and a few control characters stand behind a
backslash; a character that is not printable is given by its number.
-/

namespace TraceLog.Text

/-- A character given by its number in lower-case hexadecimal digits. -/
def byNumber (c : Char) : List Char :=
  '\\' :: 'u' :: '{' :: (Nat.toDigits 16 c.toNat ++ ['}'])

/-- A character inside quotation marks. -/
def shown (c : Char) : List Char :=
  if c = '\x00' then ['\\', '0']
  else if c = '\t' then ['\\', 't']
  else if c = '\n' then ['\\', 'n']
  else if c = '\r' then ['\\', 'r']
  else if c = '"' ∨ c = '\\' then ['\\', c]
  else if isPrintable c then [c]
  else byNumber c

/-- A text in quotation marks. -/
def quoted (s : String) : String :=
  String.ofList ('"' :: (s.toList.flatMap shown ++ ['"']))

end TraceLog.Text
