import TraceLog.Json.Render

/-!
# TraceLog.Proofs.Json.Controls

The text of a document holds no control characters.

A string stands in a document with its control characters escaped, and
everything else that is written is made of digits, letters and marks.  So
every document is one line, whatever strings it holds.

* `NoControls` — a text without characters below U+0020;
* `Json.noControls_render` — the text of any document is one.
-/

namespace TraceLog

/-- No character of the text is below U+0020. -/
def NoControls (text : List Char) : Prop := ∀ c ∈ text, 0x20 ≤ c.toNat

@[simp] theorem noControls_nil : NoControls [] := by
  intro c hc
  contradiction

@[simp] theorem noControls_cons {c : Char} {text : List Char} :
    NoControls (c :: text) ↔ 0x20 ≤ c.toNat ∧ NoControls text := List.forall_mem_cons

@[simp] theorem noControls_append {left right : List Char} :
    NoControls (left ++ right) ↔ NoControls left ∧ NoControls right := List.forall_mem_append

@[simp] theorem noControls_replicate {n : Nat} {c : Char} (hc : 0x20 ≤ c.toNat) :
    NoControls (List.replicate n c) := by
  intro d hd
  rw [(List.mem_replicate.1 hd).2]
  exact hc

theorem NoControls.sublist {part text : List Char} (h : NoControls text)
    (hpart : part.Sublist text) : NoControls part := fun c hc => h c (hpart.mem hc)

/-! ## Numbers -/

/-- Decimal digits are no control characters. -/
@[simp] theorem noControls_decimal (n : Nat) : NoControls (decimal n) := by
  intro c hc
  have hdigit := Nat.isDigit_of_mem_toDigits (by omega) (by omega) hc
  simp only [Char.isDigit, Bool.and_eq_true, decide_eq_true_eq] at hdigit
  have hlow : '0'.toNat ≤ c.toNat := UInt32.le_iff_toNat_le.1 hdigit.1
  have hzero : '0'.toNat = 48 := rfl
  omega

@[simp] theorem noControls_signedDecimal (n : Int) : NoControls (signedDecimal n) := by
  rw [signedDecimal]
  split <;> simp

namespace NumberFormat

/-- Setting out digits adds a point, zeros, an exponent and signs. -/
theorem noControls_layout (f : NumberFormat) {digits : List Char} (h : NoControls digits)
    (lead : Int) : NoControls (f.layout digits lead) := by
  unfold layout
  split
  · split
    · simp [h]
    · have htake := h.sublist (List.take_sublist (lead.toNat + 1) digits)
      have hdrop := h.sublist (List.drop_sublist (lead.toNat + 1) digits)
      dsimp only
      split
      · simp [htake, hdrop]
      · split <;> simp [h]
  · by_cases hlead : lead < 0
    · match digits, h with
      | [], _ => simp [hlead]
      | [_], h => simpa [hlead] using h
      | _ :: _ :: _, h => simpa [hlead] using h
    · match digits, h with
      | [], _ => simp [hlead]
      | [_], h => simpa [hlead] using h
      | _ :: _ :: _, h => simpa [hlead] using h

/-- The text of a number holds no control characters. -/
@[simp] theorem noControls_render (f : NumberFormat) (x : Binary64) : NoControls (f.render x) := by
  have hunsigned : NoControls (f.unsigned x) := by
    rw [unsigned]
    split
    · exact f.noControls_layout (by simp) 0
    · exact f.noControls_layout (noControls_decimal _) _
  rw [render]
  split
  · simp
  · split <;> split <;> simp [hunsigned]

end NumberFormat

namespace Json

@[simp] theorem noControls_renderNumber (n : Number) : NoControls (renderNumber n) := by
  cases n <;> simp [renderNumber]

/-! ## Strings -/

/-- The letters that stand for control characters are none themselves. -/
theorem controlLetter?_eq_some {c letter : Char} (h : controlLetter? c = some letter) :
    0x20 ≤ letter.toNat := by
  rw [controlLetter?] at h
  repeat' split at h
  all_goals first
    | contradiction
    | rw [Option.some.injEq] at h
      subst h
      decide

/-- Inside a string, control characters are escaped. -/
theorem noControls_escapeChar (c : Char) : NoControls (escapeChar c) := by
  have hdigits : ∀ n < 16, 0x20 ≤ (Nat.digitChar n).toNat := by decide
  rw [escapeChar]
  split
  · simp
  · split
    · simp
    · split
      · next hcontrol =>
        have hhigh := hdigits (c.toNat / 16) (by omega)
        have hlow := hdigits (c.toNat % 16) (by omega)
        split
        · next hletter => simp [controlLetter?_eq_some hletter]
        · simp [hhigh, hlow]
      · next hplain => simpa using hplain

theorem noControls_escape (text : List Char) : NoControls (escape text) := by
  induction text with
  | nil => simp [escape]
  | cons c text ih => simp [escape, ih, noControls_escapeChar]

/-- A string in quotation marks holds no control characters, whatever is in
it. -/
@[simp] theorem noControls_quote (s : String) : NoControls (quote s) := by
  simp [quote, noControls_escape]

/-! ## Documents -/

mutual

/-- A document in front of a text without control characters. -/
theorem noControls_write (document : Json) {rest : List Char} (h : NoControls rest) :
    NoControls (document.write rest) := by
  match document with
  | .null => simpa [write] using h
  | .bool true => simpa [write] using h
  | .bool false => simpa [write] using h
  | .number n => simpa [write] using h
  | .string s => simpa [write] using h
  | .array [] => simpa [write] using h
  | .array (item :: items) =>
      have hclosed : NoControls (']' :: rest) := by simpa using h
      have hitems := noControls_write item (noControls_writeItems items hclosed)
      simpa [write] using hitems
  | .object [] => simpa [write] using h
  | .object ((name, value) :: fields) =>
      have hclosed : NoControls ('}' :: rest) := by simpa using h
      have hfields := noControls_write value (noControls_writeFields fields hclosed)
      simpa [write] using hfields

/-- `noControls_write` for items behind commas. -/
theorem noControls_writeItems (items : List Json) {rest : List Char} (h : NoControls rest) :
    NoControls (writeItems items rest) := by
  match items with
  | [] => exact h
  | item :: items =>
      have hitems := noControls_write item (noControls_writeItems items h)
      simpa [writeItems] using hitems

/-- `noControls_write` for fields behind commas. -/
theorem noControls_writeFields (fields : List (String × Json)) {rest : List Char}
    (h : NoControls rest) : NoControls (writeFields fields rest) := by
  match fields with
  | [] => exact h
  | (name, value) :: fields =>
      have hfields := noControls_write value (noControls_writeFields fields h)
      simpa [writeFields] using hfields

end

/-- **The text of a document holds no control characters.** -/
theorem noControls_render (document : Json) : NoControls document.render :=
  document.noControls_write noControls_nil

theorem noControls_renderField (name : String) {value : List Char} (h : NoControls value) :
    NoControls (renderField name value) := by
  simp [renderField, h]

/-- Fields without control characters make an object without them. -/
theorem noControls_enclose {fields : List (List Char)} (h : ∀ field ∈ fields, NoControls field) :
    NoControls (enclose fields) := by
  have hfields : NoControls (commaSeparated fields) := by
    induction fields using commaSeparated.induct with
    | case1 => simp [commaSeparated]
    | case2 part => simpa [commaSeparated] using h
    | case3 part rest hne ih =>
        rw [List.forall_mem_cons] at h
        rw [commaSeparated]
        · simp [h.1, ih h.2]
        · exact hne
  simp [enclose, hfields]

end Json

end TraceLog
