import TraceLog.Proofs.Json.Grammar
import TraceLog.Proofs.Schema.Accepted

/-!
# TraceLog.Proofs.Schema.Extended

Texts of values with more around them.

What a text is read as, by any schema without records, does not depend on the
blanks in front of the value or on what follows it.

* `Json.Reader.Local` — readers that look at a value only;
* `Schema.local_read` — those of the schemas are such readers.
-/

namespace TraceLog

open Json (Fault)

namespace Json.Reader

variable {α : Type} {p : Precision}

/-- A reader that looks at a value only: not at the blanks in front of it, not
at what follows it, and not without it. -/
structure Local (reader : Reader α) : Prop where
  blanks : ∀ cs, reader (skipBlank cs) = reader cs
  nil : reader [] = .error .cutShort
  closing : ∀ cs result, reader (']' :: cs) ≠ .ok result
  extended : Extends reader reader

/-- A reader that chooses by the first character behind the blanks. -/
theorem Local.of_eq {reader choose : Reader α} (heq : ∀ cs, reader cs = choose (skipBlank cs))
    (hnil : choose [] = .error .cutShort)
    (hclosing : ∀ cs result, choose (']' :: cs) ≠ .ok result)
    (hchoose : Extends choose choose) : Local reader where
  blanks cs := by rw [heq, heq, skipBlank_skipBlank]
  nil := (heq []).trans hnil
  closing cs result := by
    rw [heq]
    exact hclosing cs result
  extended := by
    rw [funext heq]
    exact hchoose.afterBlanks (by simp [hnil])

/-- **The text of a value is read wherever it stands.** -/
theorem Local.takesFrom {reader : Reader α} (h : Local reader) {text : String} {a : α}
    (hread : readWith reader text = .ok a) : TakesFrom (· ≠ ']') reader text.toList a := by
  obtain ⟨⟨b, rest⟩, htake, -⟩ := exists_of_bind_eq_ok hread
  rw [← h.blanks] at htake
  have htakes := takes_of_readWith h.extended hread
  cases hstart : skipBlank text.toList with
  | nil =>
      rw [hstart, h.nil] at htake
      cases htake
  | cons c tail =>
      refine htakes.takesFrom h.blanks hstart ?_
      rintro rfl
      exact h.closing tail _ (hstart ▸ htake)

/-! ## Scalars -/

theorem extends_unexpected (expected : String) (reader' : Reader α) :
    Extends (unexpected p expected) reader' := fun _ _ _ h => absurd h unexpected_ne_ok

theorem bool_eq (cs : List Char) :
    Reader.bool p cs = (markedOr 't' (word ['r', 'u', 'e'] true) <|
      markedOr 'f' (word ['a', 'l', 's', 'e'] false) <| unexpected p "a boolean")
        (skipBlank cs) := by
  rw [Reader.bool]
  cases skipBlank cs with
  | nil => rfl
  | cons c cs =>
      by_cases ht : c = 't'
      · simp [markedOr, ht]
      · by_cases hf : c = 'f'
        · simp [markedOr, hf]
        · simp [markedOr, ht, hf]

theorem local_bool : Local (Reader.bool p) := by
  refine .of_eq bool_eq rfl (fun _ _ => ?_) ?_
  · simp [markedOr, unexpected_ne_ok]
  · exact (extends_word _ _).markedOr ((extends_word _ _).markedOr (extends_unexpected _ _) _) _

/-- A value may have to be found fit. -/
theorem extends_except (result : Except Fault α) :
    Extends (fun cs => result.map (·, cs)) fun cs => result.map (·, cs) := by
  cases result with
  | error fault => exact extends_error fault _
  | ok a => exact extends_pure a

/-- A number as an integer of a type. -/
def asWord (w : Word) (n : Number) : Except Fault w.Val :=
  match n with
  | .integer n _ =>
    match w.ofInt? n with
    | some v => .ok v
    | none => .error (.mismatch (.range n w.label))
  | .float _ _ => .error (.mismatch (.kind (.number n) w.label))

theorem integer_eq (w : Word) (cs : List Char) :
    integer p w cs = numberOr (Reader.andThen (number p) fun n cs => (asWord w n).map (·, cs))
      (unexpected p w.label) (skipBlank cs) := by
  rw [integer]
  cases skipBlank cs with
  | nil => rfl
  | cons c cs =>
      simp only [numberOr, andThen, asWord]
      split
      · refine bind_congr fun p => ?_
        obtain ⟨n | x, cs⟩ := p
        · cases h : w.ofInt? n <;> simp [h, Except.map]
        · rfl
      · rfl

theorem local_integer (w : Word) : Local (integer p w) := by
  refine .of_eq (integer_eq w) rfl (fun _ _ => ?_) ?_
  · simp [numberOr, startsNumber, unexpected_ne_ok]
  · exact (extends_number.andThen fun n => extends_except _).numberOr (extends_unexpected _ _)

/-- A number as a floating-point number. -/
def asFloat : Number → Binary64
  | .integer n _ => .ofInt n
  | .float x _ => x

theorem float_eq (cs : List Char) :
    Reader.float p cs = numberOr (Reader.andThen (number p) fun n cs => .ok (asFloat n, cs))
      (unexpected p "f64") (skipBlank cs) := by
  rw [Reader.float]
  cases skipBlank cs with
  | nil => rfl
  | cons c cs =>
      simp only [numberOr, andThen]
      split
      · refine bind_congr fun p => ?_
        obtain ⟨n | x, cs⟩ := p <;> rfl
      · rfl

theorem local_float : Local (Reader.float p) := by
  refine .of_eq float_eq rfl (fun _ _ => ?_) ?_
  · simp [numberOr, startsNumber, unexpected_ne_ok]
  · exact (extends_number.map asFloat).numberOr (extends_unexpected _ _)

theorem text_eq (expected : String) (cs : List Char) :
    text p expected cs = markedOr '"' string (unexpected p expected) (skipBlank cs) := by
  rw [text]
  cases skipBlank cs with
  | nil => rfl
  | cons c cs =>
      by_cases hquote : c = '"'
      · simp [markedOr, hquote]
      · simp [markedOr, hquote]

theorem local_text (expected : String) : Local (text p expected) := by
  refine .of_eq (text_eq expected) rfl (fun _ _ => ?_) ?_
  · simp [markedOr, unexpected_ne_ok]
  · exact extends_string.markedOr (extends_unexpected _ _) _

theorem unit_eq (cs : List Char) :
    unit p cs = markedOr 'n' (word ['u', 'l', 'l'] ()) (unexpected p "unit") (skipBlank cs) := by
  rw [unit]
  cases skipBlank cs with
  | nil => rfl
  | cons c cs =>
      by_cases hn : c = 'n'
      · simp [markedOr, hn]
      · simp [markedOr, hn]

theorem local_unit : Local (unit p) := by
  refine .of_eq unit_eq rfl (fun _ _ => ?_) ?_
  · simp [markedOr, unexpected_ne_ok]
  · exact (extends_word _ _).markedOr (extends_unexpected _ _) _

/-- A string as one of the names. -/
def asName (names : List String) (s : String) : Except Fault { s : String // s ∈ names } :=
  if h : s ∈ names then .ok ⟨s, h⟩ else .error (.mismatch (.unknownVariant s names))

theorem oneOf_eq (names : List String) :
    oneOf names = Reader.andThen string fun s cs => (asName names s).map (·, cs) := by
  funext cs
  refine bind_congr fun p => ?_
  by_cases h : p.1 ∈ names <;> simp [asName, h, Except.map]

theorem extends_oneOf (names : List String) : Extends (oneOf names) (oneOf names) := by
  rw [oneOf_eq]
  exact extends_string.andThen fun s => extends_except _

/-- What follows the name in an object that gives `null` under it. -/
def behindName (p : Precision) (v : α) : Reader α :=
  Reader.andThen colon fun _ => Reader.andThen (unit p) fun _ cs =>
    markedOr '}' (fun cs => .ok (v, cs)) (fun _ => .error .malformed) (skipBlank cs)

theorem overNull_eq (names : List String) (cs : List Char) :
    choice.overNull p names cs = markedOr '"' (Reader.andThen (oneOf names) (behindName p))
      (fun _ => .error .malformed) (skipBlank cs) := by
  rw [choice.overNull]
  cases skipBlank cs with
  | nil => rfl
  | cons c cs =>
      by_cases hquote : c = '"'
      · subst hquote
        refine bind_congr fun _ => bind_congr fun _ => bind_congr fun r => ?_
        dsimp only
        cases skipBlank r.2 with
        | nil => rfl
        | cons d ds =>
            by_cases hbrace : d = '}'
            · simp [markedOr, hbrace]
            · simp [markedOr, hbrace]
      · simp [markedOr, hquote]

theorem choice_eq (names : List String) (depth : Nat) (cs : List Char) :
    choice p names depth cs = (markedOr '"' (oneOf names) <|
      markedOr '{' (if depth = 0 then fun _ => .error .malformed else choice.overNull p names)
        fun _ => .error .malformed) (skipBlank cs) := by
  rw [choice]
  cases skipBlank cs with
  | nil => rfl
  | cons c cs =>
      by_cases hquote : c = '"'
      · simp [markedOr, hquote]
      · by_cases hbrace : c = '{'
        · by_cases hdepth : depth = 0
          · simp [markedOr, hbrace, hdepth]
          · simp [markedOr, hbrace, hdepth]
        · simp [markedOr, hquote, hbrace]

theorem local_choice (names : List String) (depth : Nat) : Local (choice p names depth) := by
  have hbehind (v : { s : String // s ∈ names }) : Extends (behindName p v) (behindName p v) := by
    refine extends_colon.andThen fun _ => local_unit.extended.andThen fun _ => ?_
    exact ((extends_pure v).markedOr (extends_error _ _) _).afterBlanks (by simp [markedOr])
  have hnull : Extends (choice.overNull p names) (choice.overNull p names) := by
    rw [funext (overNull_eq names)]
    exact (((extends_oneOf names).andThen hbehind).markedOr (extends_error _ _) _).afterBlanks
      (by simp [markedOr])
  refine .of_eq (choice_eq names depth) rfl (fun _ _ => ?_) ?_
  · simp [markedOr]
  · refine (extends_oneOf names).markedOr (Extends.markedOr ?_ (extends_error _ _) _) _
    split
    · exact extends_error _ _
    · exact hnull

/-! ## Values of a value -/

theorem optional_eq {reader : Reader α} (hnil : reader [] = .error .cutShort) (cs : List Char) :
    Reader.optional reader cs = markedOr 'n' (word ['u', 'l', 'l'] none)
      (reader.andThen fun a cs => .ok (some a, cs)) (skipBlank cs) := by
  rw [Reader.optional]
  cases skipBlank cs with
  | nil => simp [markedOr, hnil, bind, Except.bind]
  | cons c cs =>
      by_cases hn : c = 'n'
      · simp [markedOr, hn]
      · simp [markedOr, andThen, hn]

theorem local_optional {reader : Reader α} (h : Local reader) : Local (Reader.optional reader) := by
  refine .of_eq (optional_eq h.nil) rfl (fun cs result => ?_) ?_
  · intro hread
    simp only [markedOr, andThen] at hread
    rw [if_neg (by decide)] at hread
    obtain ⟨q, hq, -⟩ := exists_of_bind_eq_ok hread
    exact h.closing cs q hq
  · exact (extends_word _ _).markedOr (h.extended.map some) _

theorem enclosed_eq (mark : Char) (expected : String) (inside : Nat → Reader α) (depth : Nat)
    (cs : List Char) :
    enclosed p mark expected inside depth cs =
      markedOr mark (nested inside depth) (unexpected p expected) (skipBlank cs) := by
  rw [enclosed]
  cases skipBlank cs with
  | nil => rfl
  | cons c cs =>
      by_cases hc : c = mark
      · cases depth <;> simp [markedOr, nested, hc]
      · simp [markedOr, hc]

theorem local_enclosed {mark : Char} {inside : Nat → Reader α} {depth : Nat} {expected : String}
    (hmark : mark ≠ ']') (hinside : ∀ below, Extends (inside below) (inside below)) :
    Local (enclosed p mark expected inside depth) := by
  refine .of_eq (enclosed_eq mark expected inside depth) rfl (fun cs result => ?_) ?_
  · rw [markedOr, if_neg hmark.symm]
    exact unexpected_ne_ok
  · exact (Extends.nested fun below _ => hinside below).markedOr (extends_unexpected _ _) _

end Json.Reader

open Json.Reader

/-- No record stands in a value. -/
def Schema.recordFree : Schema → Bool
  | .optional s => s.recordFree
  | .list s => s.recordFree
  | .record _ _ => false
  | _ => true

/-- **What a text is read as does not depend on what stands around it.** -/
theorem Schema.local_read {p : Precision} (s : Schema) (hs : s.recordFree = true) (depth : Nat) :
    Local (s.read p depth) := by
  match s with
  | .bool => exact local_bool
  | .word w => exact local_integer w
  | .float => exact local_float
  | .text => exact local_text _
  | .path => exact local_text _
  | .choice names => exact local_choice names depth
  | .optional s => exact local_optional (s.local_read hs depth)
  | .list s =>
    exact local_enclosed (by decide) fun below => extends_items (s.local_read hs below).extended
  | .documents =>
    exact local_enclosed (by decide) fun below =>
      extends_fields (extends_anyField (extends_value below)) []

end TraceLog
