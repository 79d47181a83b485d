import TraceLog.Json.Scan

/-!
# TraceLog.Json.Read

Reading documents.

`Reader.value` reads any document.  Arrays and objects may be nested in one
another up to `nestingLimit` deep, which bounds the recursion.  The fields of
an object are put in ascending order, the last of equal names winning.

`Reader.skip` passes over a value that is not wanted.  It checks the grammar
only: nesting is not limited, a number is not converted, and halves of
surrogate pairs may stand alone.
-/

namespace TraceLog.Json

/-- How deep arrays and objects may be nested in a text. -/
def nestingLimit : Nat := 127

namespace Reader

/-! ## Any document -/

/-- A field of an object of any documents, added to the fields before it. -/
def anyField (value : Reader Json) (before : Entries Json) : Reader (Entries Json) := fun cs => do
  let (key, cs) ← name cs
  let (_, cs) ← colon cs
  let (v, cs) ← value cs
  .ok (before.insert key v, cs)

/-- A document in which at most `depth` arrays and objects are nested. -/
def value (p : Precision) : (depth : Nat) → Reader Json
  | depth, cs =>
    match skipBlank cs with
    | [] => .error .cutShort
    | 'n' :: cs => word ['u', 'l', 'l'] .null cs
    | 't' :: cs => word ['r', 'u', 'e'] (.bool true) cs
    | 'f' :: cs => word ['a', 'l', 's', 'e'] (.bool false) cs
    | '"' :: cs => do
      let (s, cs) ← string cs
      .ok (.string s, cs)
    | '[' :: cs =>
      match depth with
      | 0 => .error .malformed
      | depth + 1 => do
        let (xs, cs) ← items (value p depth) cs
        .ok (.array xs, cs)
    | '{' :: cs =>
      match depth with
      | 0 => .error .malformed
      | depth + 1 => do
        let (entries, cs) ← fields (anyField (value p depth)) [] cs
        .ok (.object entries, cs)
    | c :: cs =>
      if startsNumber c then do
        let (n, cs) ← number p (c :: cs)
        .ok (.number n, cs)
      else .error .malformed

/-! ## Values that are not wanted -/

/-- One digit or more of a number that is not wanted; an absent digit is
malformed also where the text ends. -/
def skipDigits : Reader Unit
  | [] => .error .malformed
  | c :: cs => if c.isDigit then .ok ((), cs.dropWhile Char.isDigit) else .error .malformed

/-- The digits before the point of a number that is not wanted. -/
def skipWhole : Reader Unit
  | '0' :: cs =>
    match cs with
    | c :: _ => if c.isDigit then .error .malformed else .ok ((), cs)
    | [] => .ok ((), [])
  | cs => skipDigits cs

/-- The exponent of a number that is not wanted, if there is one. -/
def skipExponent : Reader Unit
  | 'e' :: cs => skipSigned cs
  | 'E' :: cs => skipSigned cs
  | cs => .ok ((), cs)
where
  /-- Digits with an optional sign. -/
  skipSigned : Reader Unit
    | '-' :: cs => skipDigits cs
    | '+' :: cs => skipDigits cs
    | cs => skipDigits cs

/-- A number that is not wanted. -/
def skipNumber (cs : List Char) : Except Fault (Unit × List Char) := do
  let (_, cs) ← skipWhole (if cs.head? == some '-' then cs.drop 1 else cs)
  match cs with
  | '.' :: cs => do
    let (_, cs) ← skipDigits cs
    skipExponent cs
  | cs => skipExponent cs

/-- The characters of a string that is not wanted, up to the closing quotation
mark; `fuel` bounds their number. -/
def skipChars : Nat → Reader Unit
  | 0, _ => .error .cutShort
  | _ + 1, [] => .error .cutShort
  | _ + 1, '"' :: cs => .ok ((), cs)
  | _ + 1, ['\\'] => .error .cutShort
  | fuel + 1, '\\' :: letter :: cs =>
    if letter = 'u' then do
      let (_, cs) ← fourHex cs
      skipChars fuel cs
    else if (escaped? letter).isSome then skipChars fuel cs
    else .error .malformed
  | fuel + 1, c :: cs => if c.toNat < 0x20 then .error .malformed else skipChars fuel cs

/-- A string that is not wanted, its opening quotation mark read. -/
def skipString (cs : List Char) : Except Fault (Unit × List Char) := skipChars (cs.length + 1) cs

/-- A field of an object that is not wanted. -/
def skipField (skip : Reader Unit) (_ : Unit) : Reader Unit
  | '"' :: cs => do
    let (_, cs) ← skipString cs
    let (_, cs) ← colon cs
    skip cs
  | _ => .error .malformed

/-- A value that is not wanted, nested at most `depth` deep. -/
def skipNested : (depth : Nat) → Reader Unit
  | depth, cs =>
    match skipBlank cs with
    | [] => .error .cutShort
    | 'n' :: cs => word ['u', 'l', 'l'] () cs
    | 't' :: cs => word ['r', 'u', 'e'] () cs
    | 'f' :: cs => word ['a', 'l', 's', 'e'] () cs
    | '"' :: cs => skipString cs
    | '[' :: cs =>
      match depth with
      | 0 => .error .cutShort
      | depth + 1 => do
        let (_, cs) ← items (skipNested depth) cs
        .ok ((), cs)
    | '{' :: cs =>
      match depth with
      | 0 => .error .cutShort
      | depth + 1 => fields (skipField (skipNested depth)) () cs
    | c :: cs => if startsNumber c then skipNumber (c :: cs) else .error .malformed

/-- A value that is not wanted.  A text cannot nest deeper than it is long. -/
def skip (cs : List Char) : Except Fault (Unit × List Char) := skipNested (cs.length + 1) cs

end Reader

/-! ## Whole texts -/

/-- Reads a text that holds one value and nothing behind it. -/
def readWith {α : Type} (reader : Reader α) (text : String) : Except Fault α := do
  let (value, rest) ← reader text.toList
  if Reader.skipBlank rest = [] then .ok value else .error .malformed

/-- Reads a document. -/
def read (text : String) (p : Precision := .bestEffort) : Except Fault Json :=
  readWith (Reader.value p nestingLimit) text

/-- The text of one value, without the blanks around it, if it is JSON. -/
def verbatim (text : String) : Except Fault (List Char) := do
  let start := Reader.skipBlank text.toList
  let (_, rest) ← Reader.skip start
  if Reader.skipBlank rest = [] then .ok (start.take (start.length - rest.length))
  else .error .malformed

end TraceLog.Json
