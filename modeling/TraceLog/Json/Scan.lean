import TraceLog.Json.Fault
import TraceLog.Number.Precision

/-!
# TraceLog.Json.Scan

The tokens of a text and the punctuation of arrays and objects.

A `Reader` takes the text from where it stands and gives a value with the rest
of the text, or the fault it met.  `items` and `fields` read what stands
between brackets and braces for any reader of an item or of a field, so the
separators are dealt with in one place.
-/

namespace TraceLog.Json

/-- Reads a value from the front of a text. -/
abbrev Reader (α : Type) := List Char → Except Fault (α × List Char)

namespace Reader

/-- Space, tab, line feed or carriage return. -/
def isBlank (c : Char) : Bool := c == ' ' || c == '\t' || c == '\n' || c == '\r'

/-- The text from its first character that is not blank. -/
def skipBlank (cs : List Char) : List Char := cs.dropWhile isBlank

/-- The rest of a word, whose first letter has been read. -/
def word {α : Type} (letters : List Char) (value : α) : Reader α :=
  match letters with
  | [] => fun cs => .ok (value, cs)
  | l :: letters => fun
    | [] => .error .cutShort
    | c :: cs => if c = l then word letters value cs else .error .malformed

/-! ## Numbers -/

/-- The digits at the front of a text. -/
def digits (cs : List Char) : List Char × List Char :=
  (cs.takeWhile Char.isDigit, cs.dropWhile Char.isDigit)

/-- One digit or more. -/
def someDigits : Reader (List Char)
  | [] => .error .cutShort
  | c :: cs => if c.isDigit then .ok (digits (c :: cs)) else .error .malformed

/-- The digits before the point: a zero stands alone. -/
def wholeDigits : Reader (List Char)
  | [] => .error .cutShort
  | '0' :: cs =>
    match cs with
    | c :: _ => if c.isDigit then .error .malformed else .ok (['0'], cs)
    | [] => .ok (['0'], [])
  | cs => someDigits cs

/-- The digits behind a point; none if there is no point. -/
def fractionDigits : Reader (List Char)
  | '.' :: cs => someDigits cs
  | cs => .ok ([], cs)

/-- The exponent behind its mark, with an optional sign. -/
def exponentValue (cs : List Char) : Except Fault (Int × List Char) := do
  let (negative, cs) := match cs with
    | '-' :: rest => (true, rest)
    | '+' :: rest => (false, rest)
    | rest => (false, rest)
  let (ds, cs) ← someDigits cs
  let n : Int := Nat.ofDigitChars 10 ds 0
  .ok (if negative then -n else n, cs)

/-- A floating-point number from its digits and its exponent, if it is in
range. -/
def floatNumber (p : Precision) (negative : Bool) (whole fraction : List Char) (exponent : Int) :
    Option Number :=
  match p.convert? negative whole fraction exponent with
  | some x => if h : x.isFinite = true then some (.float x h) else none
  | none => none

/-- An integer with a sign.  Those that no 64-bit type holds, and a negative
zero, become floating-point numbers. -/
def integerNumber (p : Precision) (negative : Bool) (whole : List Char) : Option Number :=
  let n := Nat.ofDigitChars 10 whole 0
  let value : Int := if negative then -(n : Int) else n
  if h : -9223372036854775808 ≤ value ∧ value < 18446744073709551616 then
    if negative && n == 0 then floatNumber p negative whole [] 0 else some (.integer value h)
  else floatNumber p negative whole [] 0

/-- A number, from its sign or first digit. -/
def number (p : Precision) (cs : List Char) : Except Fault (Number × List Char) := do
  let (negative, cs) := match cs with
    | '-' :: rest => (true, rest)
    | rest => (false, rest)
  let (whole, cs) ← wholeDigits cs
  let pointed := cs.head? == some '.'
  let (fraction, cs) ← fractionDigits cs
  let (exponent, cs) ← match cs with
    | 'e' :: rest => do let (e, rest) ← exponentValue rest; pure (some e, rest)
    | 'E' :: rest => do let (e, rest) ← exponentValue rest; pure (some e, rest)
    | rest => pure (none, rest)
  let value :=
    if pointed || exponent.isSome then floatNumber p negative whole fraction (exponent.getD 0)
    else integerNumber p negative whole
  match value with
  | some value => .ok (value, cs)
  | none => .error .malformed

/-- Whether a number starts with this character. -/
def startsNumber (c : Char) : Bool := c == '-' || c.isDigit

/-! ## Strings -/

/-- The value of a hexadecimal digit. -/
def hexValue? (c : Char) : Option Nat :=
  if c.isDigit then some (c.toNat - 0x30)
  else if 'a' ≤ c ∧ c ≤ 'f' then some (c.toNat - 0x61 + 10)
  else if 'A' ≤ c ∧ c ≤ 'F' then some (c.toNat - 0x41 + 10)
  else none

/-- The number of UTF-8 bytes of a text. -/
def byteLength (cs : List Char) : Nat := cs.foldr (fun c n => c.utf8Size + n) 0

/-- Four hexadecimal digits.  A text of fewer than four bytes is cut short,
whatever it holds. -/
def fourHex : Reader Nat
  | a :: b :: c :: d :: rest =>
    match hexValue? a, hexValue? b, hexValue? c, hexValue? d with
    | some a, some b, some c, some d => .ok (((a * 16 + b) * 16 + c) * 16 + d, rest)
    | _, _, _, _ => .error .malformed
  | cs => if byteLength cs < 4 then .error .cutShort else .error .malformed

/-- The character that a letter behind a backslash stands for. -/
def escaped? (letter : Char) : Option Char :=
  match letter with
  | '"' => some '"'
  | '\\' => some '\\'
  | '/' => some '/'
  | 'b' => some '\x08'
  | 'f' => some '\x0c'
  | 'n' => some '\n'
  | 'r' => some '\r'
  | 't' => some '\t'
  | _ => none

/-- A character given by four hexadecimal digits, or by two times four if the
first are the leading half of a pair. -/
def numbered (cs : List Char) : Except Fault (Char × List Char) := do
  let (high, cs) ← fourHex cs
  if 0xDC00 ≤ high ∧ high < 0xE000 then .error .malformed
  else if high < 0xD800 ∨ 0xE000 ≤ high then .ok (Char.ofNat high, cs)
  else match cs with
    | [] => .error .cutShort
    | ['\\'] => .error .cutShort
    | '\\' :: 'u' :: cs => do
      let (low, cs) ← fourHex cs
      if 0xDC00 ≤ low ∧ low < 0xE000 then
        .ok (Char.ofNat (0x10000 + (high - 0xD800) * 0x400 + (low - 0xDC00)), cs)
      else .error .malformed
    | _ => .error .malformed

/-- The character behind a backslash. -/
def escapedChar : Reader Char
  | [] => .error .cutShort
  | 'u' :: cs => numbered cs
  | letter :: cs =>
    match escaped? letter with
    | some c => .ok (c, cs)
    | none => .error .malformed

/-- The characters up to the closing quotation mark; `fuel` bounds their
number. -/
def stringChars : Nat → Reader (List Char)
  | 0, _ => .error .cutShort
  | _ + 1, [] => .error .cutShort
  | _ + 1, '"' :: cs => .ok ([], cs)
  | fuel + 1, '\\' :: cs => do
    let (c, cs) ← escapedChar cs
    let (rest, cs) ← stringChars fuel cs
    .ok (c :: rest, cs)
  | fuel + 1, c :: cs =>
    if c.toNat < 0x20 then .error .malformed
    else do
      let (rest, cs) ← stringChars fuel cs
      .ok (c :: rest, cs)

/-- A string, its opening quotation mark read. -/
def string (cs : List Char) : Except Fault (String × List Char) := do
  let (chars, cs) ← stringChars (cs.length + 1) cs
  .ok (String.ofList chars, cs)

/-! ## Punctuation -/

/-- The items of an array from the first one on; `fuel` bounds their
number. -/
def itemsFrom {α : Type} (item : Reader α) : Nat → Reader (List α)
  | 0, _ => .error .cutShort
  | fuel + 1, cs => do
    let (x, cs) ← item cs
    match skipBlank cs with
    | [] => .error .cutShort
    | ']' :: cs => .ok ([x], cs)
    | ',' :: cs =>
      match skipBlank cs with
      | [] => .error .cutShort
      | ']' :: _ => .error .malformed
      | cs => do
        let (xs, cs) ← itemsFrom item fuel cs
        .ok (x :: xs, cs)
    | _ => .error .malformed

/-- The items of an array, its opening bracket read. -/
def items {α : Type} (item : Reader α) (cs : List Char) : Except Fault (List α × List Char) :=
  match skipBlank cs with
  | [] => .error .cutShort
  | ']' :: cs => .ok ([], cs)
  | cs => itemsFrom item (cs.length + 1) cs

/-- The fields of an object from the first one on.  A field reader starts at
the quotation mark of a name and carries on a state; `fuel` bounds the number
of fields. -/
def fieldsFrom {σ : Type} (field : σ → Reader σ) : Nat → σ → Reader σ
  | 0, _, _ => .error .cutShort
  | fuel + 1, state, cs => do
    let (state, cs) ← field state cs
    match skipBlank cs with
    | [] => .error .cutShort
    | '}' :: cs => .ok (state, cs)
    | ',' :: cs =>
      match skipBlank cs with
      | [] => .error .cutShort
      | '"' :: cs => fieldsFrom field fuel state ('"' :: cs)
      | _ => .error .malformed
    | _ => .error .malformed

/-- The fields of an object, its opening brace read. -/
def fields {σ : Type} (field : σ → Reader σ) (state : σ) (cs : List Char) :
    Except Fault (σ × List Char) :=
  match skipBlank cs with
  | [] => .error .cutShort
  | '}' :: cs => .ok (state, cs)
  | '"' :: cs => fieldsFrom field (cs.length + 1) state ('"' :: cs)
  | _ => .error .malformed

/-- The name of a field, from its quotation mark. -/
def name : Reader String
  | '"' :: cs => string cs
  | [] => .error .cutShort
  | _ => .error .malformed

/-- The colon between a name and its value. -/
def colon (cs : List Char) : Except Fault (Unit × List Char) :=
  match skipBlank cs with
  | [] => .error .cutShort
  | ':' :: cs => .ok ((), cs)
  | _ => .error .malformed

end Reader

end TraceLog.Json
