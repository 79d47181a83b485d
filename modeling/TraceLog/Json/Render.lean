import TraceLog.Json.Basic
import TraceLog.Number.Format

/-!
# TraceLog.Json.Render

The compact text of a document.

Nothing stands between the tokens.  A string escapes the quotation mark, the
backslash and the characters below U+0020, the latter by their letter where
they have one; every other character stands for itself.  So the text of a
document never holds a control character.
-/

namespace TraceLog.Json

/-! ## Strings -/

/-- The letter that stands for a control character behind a backslash. -/
def controlLetter? (c : Char) : Option Char :=
  if c = '\x08' then some 'b'
  else if c = '\x0c' then some 'f'
  else if c = '\n' then some 'n'
  else if c = '\r' then some 'r'
  else if c = '\t' then some 't'
  else none

/-- A character inside a string. -/
def escapeChar (c : Char) : List Char :=
  if c = '"' then ['\\', '"']
  else if c = '\\' then ['\\', '\\']
  else if c.toNat < 0x20 then
    match controlLetter? c with
    | some letter => ['\\', letter]
    | none => ['\\', 'u', '0', '0', Nat.digitChar (c.toNat / 16), Nat.digitChar (c.toNat % 16)]
  else [c]

/-- The characters of a string, between its quotation marks. -/
def escape : List Char → List Char
  | [] => []
  | c :: rest => escapeChar c ++ escape rest

/-- A string in quotation marks. -/
def quote (s : String) : List Char := '"' :: (escape s.toList ++ ['"'])

/-! ## Documents -/

/-- Texts with commas between them. -/
def commaSeparated : List (List Char) → List Char
  | [] => []
  | [part] => part
  | part :: rest => part ++ ',' :: commaSeparated rest

/-- The text of a number. -/
def renderNumber : Number → List Char
  | .integer n _ => signedDecimal n
  | .float x _ => NumberFormat.data.render x

/-- A field of an object whose value has the text `value`. -/
def renderField (name : String) (value : List Char) : List Char := quote name ++ ':' :: value

/-- An object, given the texts of its fields. -/
def enclose (fields : List (List Char)) : List Char := '{' :: (commaSeparated fields ++ ['}'])

mutual

/-- The compact text of a document in front of a text.  The text behind is
handed inwards, so that nothing is copied, however deep the document is. -/
def write : Json → List Char → List Char
  | .null, rest => 'n' :: 'u' :: 'l' :: 'l' :: rest
  | .bool true, rest => 't' :: 'r' :: 'u' :: 'e' :: rest
  | .bool false, rest => 'f' :: 'a' :: 'l' :: 's' :: 'e' :: rest
  | .number n, rest => renderNumber n ++ rest
  | .string s, rest => quote s ++ rest
  | .array [], rest => '[' :: ']' :: rest
  | .array (item :: items), rest => '[' :: item.write (writeItems items (']' :: rest))
  | .object [], rest => '{' :: '}' :: rest
  | .object ((name, value) :: fields), rest =>
    '{' :: (quote name ++ ':' :: value.write (writeFields fields ('}' :: rest)))

/-- Items, each behind a comma, in front of a text. -/
def writeItems : List Json → List Char → List Char
  | [], rest => rest
  | item :: items, rest => ',' :: item.write (writeItems items rest)

/-- Fields, each behind a comma, in front of a text. -/
def writeFields : List (String × Json) → List Char → List Char
  | [], rest => rest
  | (name, value) :: fields, rest =>
    ',' :: (quote name ++ ':' :: value.write (writeFields fields rest))

end

/-- The compact text of a document. -/
def render (document : Json) : List Char := document.write []

/-! ## Small lemmas -/

mutual

/-- What stands behind a document stays as it is. -/
theorem write_eq (document : Json) (rest : List Char) :
    document.write rest = document.write [] ++ rest := by
  match document with
  | .null => rfl
  | .bool true => rfl
  | .bool false => rfl
  | .number n => simp [write]
  | .string s => simp [write]
  | .array [] => rfl
  | .array (item :: items) =>
    simp only [write]
    rw [write_eq item (writeItems items (']' :: rest)), write_eq item (writeItems items [']']),
      writeItems_eq items (']' :: rest), writeItems_eq items [']']]
    simp
  | .object [] => rfl
  | .object ((name, value) :: fields) =>
    simp only [write]
    rw [write_eq value (writeFields fields ('}' :: rest)),
      write_eq value (writeFields fields ['}']), writeFields_eq fields ('}' :: rest),
      writeFields_eq fields ['}']]
    simp

/-- What stands behind the items stays as it is. -/
theorem writeItems_eq (items : List Json) (rest : List Char) :
    writeItems items rest = writeItems items [] ++ rest := by
  match items with
  | [] => rfl
  | item :: items =>
    simp only [writeItems]
    rw [write_eq item (writeItems items rest), write_eq item (writeItems items []),
      writeItems_eq items rest]
    simp

/-- What stands behind the fields stays as it is. -/
theorem writeFields_eq (fields : List (String × Json)) (rest : List Char) :
    writeFields fields rest = writeFields fields [] ++ rest := by
  match fields with
  | [] => rfl
  | (name, value) :: fields =>
    simp only [writeFields]
    rw [write_eq value (writeFields fields rest), write_eq value (writeFields fields []),
      writeFields_eq fields rest]
    simp

end

/-- A document in front of a text is its own text and then that one. -/
theorem write_eq_render (document : Json) (rest : List Char) :
    document.write rest = document.render ++ rest := write_eq document rest

/-- The texts of the items, each behind a comma. -/
theorem writeItems_eq_flatMap (items : List Json) :
    writeItems items [] = items.flatMap fun item => ',' :: item.render := by
  induction items with
  | nil => rfl
  | cons item items ih => rw [writeItems, write_eq_render, ih, List.flatMap_cons, List.cons_append]

/-- The texts of the fields, each behind a comma. -/
theorem writeFields_eq_flatMap (fields : List (String × Json)) :
    writeFields fields [] =
      fields.flatMap fun field => ',' :: renderField field.1 field.2.render := by
  induction fields with
  | nil => rfl
  | cons field fields ih =>
    rw [writeFields, write_eq_render, ih, List.flatMap_cons]
    simp [renderField]

/-- Texts with commas between them: the first one, and the others behind a
comma each. -/
theorem commaSeparated_cons (part : List Char) (parts : List (List Char)) :
    commaSeparated (part :: parts) = part ++ parts.flatMap (',' :: ·) := by
  induction parts generalizing part with
  | nil => simp [commaSeparated]
  | cons next parts ih => simp [commaSeparated, ih]

/-- An array is the texts of its items between brackets. -/
theorem render_array (items : List Json) :
    (array items).render = '[' :: (commaSeparated (items.map render) ++ [']']) := by
  cases items with
  | nil => rfl
  | cons item items =>
    rw [render, write, write_eq_render, writeItems_eq, writeItems_eq_flatMap, List.map_cons,
      commaSeparated_cons, List.flatMap_map, List.append_assoc]

/-- An object is the texts of its fields between braces. -/
theorem render_object (fields : List (String × Json)) :
    (object fields).render =
      enclose (fields.map fun field => renderField field.1 field.2.render) := by
  cases fields with
  | nil => rfl
  | cons field fields =>
    rw [render, write, write_eq_render, writeFields_eq, writeFields_eq_flatMap, enclose,
      List.map_cons, commaSeparated_cons, List.flatMap_map]
    simp [renderField]

end TraceLog.Json
