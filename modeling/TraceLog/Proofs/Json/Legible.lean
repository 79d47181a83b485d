import TraceLog.Proofs.Json.Numbers
import TraceLog.Proofs.Number.Precision

/-!
# TraceLog.Proofs.Json.Legible

What numbers and documents are read as from their texts.

A reader that takes the nearest number reads every number back.  One that is
content with a number nearby does so for all integers, and for floating-point
numbers that are written with few digits; of the others it misses some.  A
document is read as one that differs in these at most.

* `Binary64.ReadAs` / `Json.ReadAs` — what is read from the text of a number or a
  document;
* `Json.scalars` — the scalars of a document, in order;
* `Binary64.Legible` / `Json.Legible` — numbers and documents that are read back;
* `Number.legible_of_length_le` — numbers with few digits are;
* `Binary64.readAs_of_ten_elevenths` — one with many digits is not.
-/

namespace TraceLog

open Json Json.Reader

/-! ## Few digits -/

theorem ofDigitChars_lt {cs : List Char} (hdigits : ∀ c ∈ cs, c.isDigit = true) (n : Nat) :
    Nat.ofDigitChars 10 cs n < (n + 1) * 10 ^ cs.length := by
  induction cs generalizing n with
  | nil => simp
  | cons c cs ih =>
      rw [List.forall_mem_cons] at hdigits
      have hdigit : c.toNat - '0'.toNat < 10 := by
        have hlast : c.toNat ≤ 57 := by
          have h := hdigits.1
          simp only [Char.isDigit, Bool.and_eq_true, decide_eq_true_eq] at h
          exact h.2
        have hzero : '0'.toNat = 48 := rfl
        omega
      rw [Nat.ofDigitChars_cons, List.length_cons, Nat.pow_succ, Nat.mul_comm (10 ^ cs.length),
        ← Nat.mul_assoc]
      refine Nat.lt_of_lt_of_le (ih hdigits.2 _) (Nat.mul_le_mul_right _ ?_)
      omega

/-- **A number of at most sixteen characters**, and without an exponent, is read
back also by a reader that is content with a number nearby: one character is the
point, so there are fifteen digits at most. -/
theorem Number.legible_of_length_le {x : Binary64} (hfinite : x.isFinite = true)
    (hlength : (NumberFormat.data.render x).length ≤ 16)
    (hpositional : 'e' ∉ NumberFormat.data.render x) :
    (Number.float x hfinite).Legible .bestEffort := by
  obtain ⟨s, hs⟩ := exists_spellsNumber x
  have htext : NumberFormat.data.render x = (if x.negative then ['-'] else []) ++ s.text :=
    hs.renderNumber_eq hfinite
  have hexponent : s.exponent = none := by
    cases hfound : s.exponent with
    | none => rfl
    | some e => simp [htext, Spelling.text, Spelling.exponentText, hfound] at hpositional
  obtain ⟨fraction, hfraction⟩ : ∃ fraction, s.fraction = some fraction := by
    have hfloat := hs.isFloat
    rwa [Spelling.isFloat, hexponent, Option.isSome_none, Bool.or_false,
      Option.isSome_iff_exists] at hfloat
  have hdigits := hs.proper.fraction fraction hfraction
  have hshort : s.whole.length + fraction.length ≤ 15 := by
    have hparts : s.text.length = s.whole.length + (fraction.length + 1) := by
      simp [Spelling.text, Spelling.fractionText, Spelling.exponentText, hfraction, hexponent]
    rw [htext, List.length_append] at hlength
    omega
  have hall : ∀ c ∈ s.whole ++ fraction, c.isDigit = true :=
    List.forall_mem_append.2 ⟨hs.proper.whole.2, hdigits.2⟩
  have hsmall : Nat.ofDigitChars 10 (s.whole ++ fraction) 0 < 2 ^ 53 := by
    have hbelow := ofDigitChars_lt hall 0
    have hpower : 10 ^ (s.whole ++ fraction).length ≤ 10 ^ 15 :=
      Nat.pow_le_pow_right (by decide) (by rwa [List.length_append])
    omega
  have hvalue : s.decimal.value =
      (Nat.ofDigitChars 10 (s.whole ++ fraction) 0 : ℚ) / 10 ^ fraction.length := by
    simp [Decimal.value, Spelling.decimal, Spelling.exponentValue, hfraction, hexponent,
      div_eq_mul_inv]
  refine legible_of_spelling hs.proper (hs.renderNumber_eq hfinite) (hs.spelledValue_eq hfinite ?_)
  have hnone : s.exponentValue = 0 := by rw [Spelling.exponentValue, hexponent]
  rw [hfraction, Option.getD_some, hnone]
  refine Precision.convert?_bestEffort rfl hsmall (by omega) hdigits.1 (fun hzero => ?_)
    fun hpos => hvalue ▸ hs.covers hpos
  have hdecimal := hs.zero hzero
  rwa [Spelling.decimal, hfraction, Option.getD_some] at hdecimal

/-! ## Floating-point numbers -/

/-- The text of the number, if it has one, is read as the other number. -/
def Binary64.ReadAs (p : Precision) (x y : Binary64) : Prop :=
  ∀ hx : x.isFinite = true, ∃ hy, (Number.float x hx).ReadAs p (.float y hy)

/-- The number is read back from its own text, if it has one. -/
def Binary64.Legible (p : Precision) (x : Binary64) : Prop := x.ReadAs p x

namespace Binary64

theorem legible_of_number {p : Precision} {x : Binary64}
    (h : ∀ hfinite : x.isFinite = true, (Number.float x hfinite).Legible p) : x.Legible p :=
  fun hfinite => ⟨hfinite, h hfinite⟩

theorem Legible.number {p : Precision} {x : Binary64} (h : x.Legible p)
    (hfinite : x.isFinite = true) : (Number.float x hfinite).Legible p :=
  (h hfinite).2

theorem legible_nearest (x : Binary64) : x.Legible .nearest :=
  legible_of_number fun hfinite => (Number.float x hfinite).legible_nearest

/-- The number nearest to ten elevenths is written with sixteen digits, and is
read as the next one above it. -/
theorem readAs_of_ten_elevenths :
    ReadAs .bestEffort ⟨0x3fed1745d1745d17⟩ ⟨0x3fed1745d1745d18⟩ := by
  have hread : (Number.float ⟨0x3fed1745d1745d17⟩ (by decide)).ReadAs .bestEffort
      (.float ⟨0x3fed1745d1745d18⟩ (by decide)) := by
    decide +kernel
  exact fun _ => ⟨_, hread⟩

end Binary64

/-! ## Documents -/

namespace Json

mutual

/-- The scalars of a document, in order. -/
def scalars : Json → List Json
  | .array items => itemsScalars items
  | .object fields => valuesScalars fields
  | .null => [.null]
  | .bool b => [.bool b]
  | .number n => [.number n]
  | .string s => [.string s]

/-- The scalars of the items. -/
def itemsScalars : List Json → List Json
  | [] => []
  | item :: rest => item.scalars ++ itemsScalars rest

/-- The scalars of the values of the fields. -/
def valuesScalars : List (String × Json) → List Json
  | [] => []
  | (_, value) :: rest => value.scalars ++ valuesScalars rest

end

theorem itemsScalars_eq_flatMap (items : List Json) :
    itemsScalars items = items.flatMap scalars := by
  induction items with
  | nil => rfl
  | cons item items ih => rw [itemsScalars, ih, List.flatMap_cons]

theorem valuesScalars_eq_flatMap (fields : List (String × Json)) :
    valuesScalars fields = fields.flatMap fun field => field.2.scalars := by
  induction fields with
  | nil => rfl
  | cons field fields ih => rw [valuesScalars, ih, List.flatMap_cons]

/-- The numbers of the document are read back from their own texts. -/
def Legible (p : Precision) (document : Json) : Prop :=
  ∀ n, .number n ∈ document.scalars → n.Legible p

variable {p : Precision}

theorem legible_nearest (document : Json) : document.Legible .nearest :=
  fun n _ => n.legible_nearest

theorem legible_number {n : Number} : Legible p (.number n) ↔ n.Legible p := by
  simp [Legible, scalars]

theorem legible_array {items : List Json} :
    Legible p (.array items) ↔ ∀ item ∈ items, item.Legible p := by
  simp only [Legible, scalars, itemsScalars_eq_flatMap, List.mem_flatMap]
  exact ⟨fun h item hitem n hn => h n ⟨item, hitem, hn⟩,
    fun h n ⟨item, hitem, hn⟩ => h item hitem n hn⟩

theorem legible_object {fields : List (String × Json)} :
    Legible p (.object fields) ↔ ∀ field ∈ fields, field.2.Legible p := by
  simp only [Legible, scalars, valuesScalars_eq_flatMap, List.mem_flatMap]
  exact ⟨fun h field hfield n hn => h n ⟨field, hfield, hn⟩,
    fun h n ⟨field, hfield, hn⟩ => h field hfield n hn⟩

/-! ## Documents read from the texts of documents -/

mutual

/-- The other document has the same parts, but for numbers, each of which is what
the text of the number in its place is read as. -/
def ReadAs (p : Precision) : (document other : Json) → Prop
  | .number n, other => ∃ m, other = .number m ∧ n.ReadAs p m
  | .array items, other => ∃ others, other = .array others ∧ ItemsReadAs p items others
  | .object fields, other => ∃ others, other = .object others ∧ ValuesReadAs p fields others
  | .null, other => other = .null
  | .bool b, other => other = .bool b
  | .string s, other => other = .string s

/-- `ReadAs` for every item. -/
def ItemsReadAs (p : Precision) : (items others : List Json) → Prop
  | [], others => others = []
  | item :: rest, others => ∃ first tail, others = first :: tail ∧ item.ReadAs p first ∧
      ItemsReadAs p rest tail

/-- `ReadAs` for the value of every field, under the same key. -/
def ValuesReadAs (p : Precision) : (fields others : List (String × Json)) → Prop
  | [], others => others = []
  | (key, value) :: rest, others => ∃ first tail, others = (key, first) :: tail ∧
      value.ReadAs p first ∧ ValuesReadAs p rest tail

end

mutual

/-- A legible document is read as it was written. -/
theorem Legible.readAs {document : Json} (h : document.Legible p) : document.ReadAs p document := by
  match document with
  | .null => rfl
  | .bool _ => rfl
  | .string _ => rfl
  | .number n => exact ⟨n, rfl, legible_number.1 h⟩
  | .array items => exact ⟨items, rfl, itemsReadAs_self items (legible_array.1 h)⟩
  | .object fields => exact ⟨fields, rfl, valuesReadAs_self fields (legible_object.1 h)⟩

theorem itemsReadAs_self (items : List Json) (h : ∀ item ∈ items, item.Legible p) :
    ItemsReadAs p items items := by
  match items with
  | [] => rfl
  | item :: rest =>
    rw [List.forall_mem_cons] at h
    exact ⟨item, rest, rfl, h.1.readAs, itemsReadAs_self rest h.2⟩

theorem valuesReadAs_self (fields : List (String × Json))
    (h : ∀ field ∈ fields, field.2.Legible p) : ValuesReadAs p fields fields := by
  match fields with
  | [] => rfl
  | (key, value) :: rest =>
    rw [List.forall_mem_cons] at h
    exact ⟨value, rest, rfl, h.1.readAs, valuesReadAs_self rest h.2⟩

end

/-- The fields keep their keys. -/
theorem ValuesReadAs.keys_eq {fields others : List (String × Json)}
    (h : ValuesReadAs p fields others) : others.map (·.1) = fields.map (·.1) := by
  induction fields generalizing others with
  | nil =>
      cases h
      rfl
  | cons field rest ih =>
      obtain ⟨first, tail, rfl, -, htail⟩ := h
      rw [List.map_cons, List.map_cons, ih htail]

end Json

end TraceLog
