import TraceLog.Proofs.Json.Accepted
import TraceLog.Proofs.Json.Composed
import TraceLog.Proofs.Json.Numbers

/-!
# TraceLog.Proofs.Json.Extended

Texts with more behind them.

A reader takes a value from the front of a text.  If it takes the value from a
text on its own, then it takes the same value with more text behind, and leaves
that, too.  The one exception is a number at the very end, which might go on.
So what a part of a text stands for may be asked of the part alone.

* `Json.Reader.Extends` — a reader goes on to take what another one takes;
* `Json.Reader.Extends.andThen` / `Extends.afterBlanks` — readers one behind the
  other, and behind blanks;
* `Json.Reader.extends_items` / `extends_fields` — arrays and objects, for any
  reader of an item or of a field;
* `Json.Reader.extends_value` — documents.
-/

namespace TraceLog

namespace Json

namespace Reader

variable {α β σ : Type}

/-- What the first reader takes from a text, the second one takes from the text
with more behind it, unless all was taken and a number may go on. -/
def Extends (reader reader' : Reader α) : Prop :=
  ∀ ⦃cs a rest⦄, reader cs = .ok (a, rest) → rest <:+ cs ∧
    ∀ more, (rest = [] → EndsNumber more) → reader' (cs ++ more) = .ok (a, rest ++ more)

/-! ## Readers one behind the other -/

theorem extends_pure (a : α) : Extends (fun cs => .ok (a, cs)) fun cs => .ok (a, cs) := by
  rintro cs _ _ ⟨⟩
  exact ⟨List.suffix_refl cs, fun more _ => rfl⟩

theorem extends_error (fault : Fault) (reader' : Reader α) :
    Extends (fun _ => .error fault) reader' := by
  rintro cs a rest ⟨⟩

theorem Extends.andThen {first first' : Reader α} {second second' : α → Reader β}
    (hfirst : Extends first first') (hsecond : ∀ a, Extends (second a) (second' a)) :
    Extends (first.andThen second) (first'.andThen second') := by
  intro cs b rest h
  obtain ⟨⟨a, between⟩, ha, hb⟩ := exists_of_bind_eq_ok h
  obtain ⟨hsuffix, hextended⟩ := hfirst ha
  obtain ⟨hsuffix', hextended'⟩ := hsecond a hb
  refine ⟨hsuffix'.trans hsuffix, fun more hmore => ?_⟩
  have hbetween : between = [] → EndsNumber more := by
    rintro rfl
    exact hmore (List.suffix_nil.1 hsuffix')
  have hread := hextended' more hmore
  simp only [Reader.andThen, hextended more hbetween]
  exact hread

/-- A value may be made of the one that was read. -/
theorem Extends.map {reader reader' : Reader α} (h : Extends reader reader') (f : α → β) :
    Extends (reader.andThen fun a cs => .ok (f a, cs))
      (reader'.andThen fun a cs => .ok (f a, cs)) :=
  h.andThen fun a => extends_pure (f a)

/-- The fuel of a reader may grow with the text. -/
theorem extends_of_fuel {reader reader' : Nat → Reader α} {fuel : List Char → Nat}
    (h : ∀ {n m}, n ≤ m → Extends (reader n) (reader' m))
    (hfuel : ∀ cs more, fuel cs ≤ fuel (cs ++ more)) :
    Extends (fun cs => reader (fuel cs) cs) fun cs => reader' (fuel cs) cs := by
  intro cs a rest hread
  refine ⟨(h (Nat.le_refl _) hread).1, fun more hmore => ?_⟩
  exact (h (hfuel cs more) hread).2 more hmore

/-- A character is taken from the front. -/
theorem Extends.cons {reader reader' : Reader α} (h : Extends reader reader') {c : Char}
    {cs rest : List Char} {a : α} (hread : reader cs = .ok (a, rest)) :
    rest <:+ c :: cs ∧ ∀ more, (rest = [] → EndsNumber more) →
      reader' (cs ++ more) = .ok (a, rest ++ more) :=
  ⟨(h hread).1.trans (List.suffix_cons c cs), (h hread).2⟩

/-- Blanks in front of a value stay in front of it. -/
theorem skipBlank_append {c : Char} {cs tail : List Char} (h : skipBlank cs = c :: tail)
    (more : List Char) : skipBlank (cs ++ more) = c :: (tail ++ more) := by
  induction cs with
  | nil => simp [skipBlank] at h
  | cons d ds ih =>
      by_cases hblank : isBlank d = true
      · rw [skipBlank, List.dropWhile_cons_of_pos hblank] at h
        rw [List.cons_append, skipBlank, List.dropWhile_cons_of_pos hblank]
        exact ih h
      · rw [skipBlank, List.dropWhile_cons_of_neg hblank] at h
        rw [List.cons_append, skipBlank, List.dropWhile_cons_of_neg hblank, ← List.cons_append, h,
          List.cons_append]

/-- Blanks may be passed over first, if something has to be there. -/
theorem Extends.afterBlanks {reader reader' : Reader α} (h : Extends reader reader')
    (hnil : ∀ p, reader [] ≠ .ok p) :
    Extends (fun cs => reader (skipBlank cs)) fun cs => reader' (skipBlank cs) := by
  intro cs a rest hread
  dsimp only at hread
  cases hstart : skipBlank cs with
  | nil =>
      rw [hstart] at hread
      exact absurd hread (hnil _)
  | cons c tail =>
      rw [hstart] at hread
      obtain ⟨hsuffix, hextended⟩ := h hread
      refine ⟨hsuffix.trans (hstart ▸ List.dropWhile_suffix _), fun more hmore => ?_⟩
      dsimp only
      rw [skipBlank_append hstart, ← List.cons_append]
      exact hextended more hmore

/-! ## Words and numbers -/

theorem extends_word (letters : List Char) (a : α) : Extends (word letters a) (word letters a) := by
  induction letters with
  | nil => exact extends_pure a
  | cons l letters ih =>
      intro cs b rest h
      cases cs with
      | nil => simp [word] at h
      | cons c cs =>
          by_cases hletter : c = l
          · simp only [word, if_pos hletter, List.cons_append] at h ⊢
            exact ih.cons h
          · simp [word, hletter] at h

/-- Digits end where they ended, unless the text does. -/
theorem digits_append_of {cs more : List Char} (h : (digits cs).2 = [] → NoDigit more) :
    digits (cs ++ more) = ((digits cs).1, (digits cs).2 ++ more) := by
  induction cs with
  | nil =>
      have hnone : digits ([] ++ more) = ([], more) := digits_append (by simp) (h rfl)
      simpa [digits] using hnone
  | cons c cs ih =>
      by_cases hdigit : c.isDigit = true
      · simp only [digits, List.cons_append, List.takeWhile_cons_of_pos hdigit,
          List.dropWhile_cons_of_pos hdigit, Prod.mk.injEq] at h ih ⊢
        exact ⟨congrArg _ (ih h).1, (ih h).2⟩
      · simp [digits, hdigit]

theorem extends_someDigits : Extends someDigits someDigits := by
  intro cs ds rest h
  cases cs with
  | nil => simp [someDigits] at h
  | cons c cs =>
      rw [someDigits] at h
      split at h
      · next hdigit =>
          rw [Except.ok.injEq] at h
          have hrest : (digits (c :: cs)).2 = rest := by rw [h]
          refine ⟨hrest ▸ List.dropWhile_suffix _, fun more hmore => ?_⟩
          have hdigits : digits (c :: cs ++ more) = _ :=
            digits_append_of fun hnil => (hmore (hrest ▸ hnil)).noDigit
          rw [List.cons_append] at hdigits ⊢
          rw [someDigits, if_pos hdigit, hdigits, h]
      · simp at h

theorem extends_wholeDigits : Extends wholeDigits wholeDigits := by
  intro cs ds rest h
  rw [wholeDigits.eq_def] at h
  split at h
  · cases h
  · next cs =>
      -- A zero stands alone, so it is what follows that may not be a digit.
      split at h
      · next c tail =>
          split at h
          · cases h
          · next hdigit =>
              cases h
              refine ⟨List.suffix_cons _ _, fun more _ => ?_⟩
              simp [wholeDigits, hdigit]
      · cases h
        refine ⟨by simp, fun more hmore => ?_⟩
        have hzero : Spelling.SomeDigits ['0'] := ⟨by simp, by simp⟩
        exact wholeDigits_append hzero (by simp) (hmore rfl).noDigit
  · next hnil hzero =>
      obtain ⟨hsuffix, hextended⟩ := extends_someDigits h
      refine ⟨hsuffix, fun more hmore => ?_⟩
      rw [← hextended more hmore]
      cases cs with
      | nil => exact absurd rfl hnil
      | cons c cs =>
          have hc : c ≠ '0' := fun heq => hzero cs (heq ▸ rfl)
          rw [List.cons_append, wholeDigits]
          · simp
          · simpa using hc

/-- What ends a number has no mark of a part. -/
theorem Extends.marked {reader reader' : Reader α} (h : Extends reader reader')
    {mark : Char → Bool} (hmark : ∀ c, mark c = true → c = '.' ∨ c = 'e' ∨ c = 'E') (absent : α) :
    Extends (Reader.marked mark reader absent) (Reader.marked mark reader' absent) := by
  intro cs a rest hread
  cases cs with
  | nil =>
      cases hread
      refine ⟨List.suffix_refl [], fun more hmore => ?_⟩
      cases more with
      | nil => rfl
      | cons c more =>
          have hc : mark c ≠ true := by
            intro hc
            have hends := hmore rfl c rfl
            rcases hmark c hc with rfl | rfl | rfl <;> simp at hends
          simp [Reader.marked, hc]
  | cons c cs =>
      by_cases hc : mark c = true
      · rw [Reader.marked, if_pos hc] at hread
        obtain ⟨hsuffix, hextended⟩ := h.cons (c := c) hread
        refine ⟨hsuffix, fun more hmore => ?_⟩
        rw [List.cons_append, Reader.marked, if_pos hc]
        exact hextended more hmore
      · rw [Reader.marked, if_neg hc] at hread
        cases hread
        refine ⟨List.suffix_refl _, fun more _ => ?_⟩
        rw [List.cons_append, Reader.marked, if_neg hc]

theorem extends_exponentValue : Extends exponentValue exponentValue := by
  have hdigits (negative : Bool) := extends_someDigits.map fun ds =>
    if negative then -(Nat.ofDigitChars 10 ds 0 : Int) else Nat.ofDigitChars 10 ds 0
  intro cs n rest h
  cases cs with
  | nil => cases h
  | cons c cs =>
      by_cases hminus : c = '-'
      · subst hminus
        exact (hdigits true).cons h
      · by_cases hplus : c = '+'
        · subst hplus
          exact (hdigits false).cons h
        · have hunsigned (cs : List Char) : exponentValue (c :: cs) =
              someDigits.andThen (fun ds cs => .ok ((Nat.ofDigitChars 10 ds 0 : Int), cs))
                (c :: cs) := by
            simp [exponentValue, andThen, hminus, hplus]
          simp only [hunsigned, List.cons_append] at h ⊢
          exact hdigits false h

theorem extends_number {p : Precision} : Extends (number p) (number p) := by
  have hunsigned (negative : Bool) : Extends (unsigned p negative) (unsigned p negative) := by
    refine extends_wholeDigits.andThen fun whole => ?_
    refine ((extends_someDigits.map _).marked (by simp) _).andThen fun fraction => ?_
    refine ((extends_exponentValue.map _).marked (by simp) _).andThen fun exponent => ?_
    cases numberOf? p negative whole fraction exponent with
    | none => exact extends_error _ _
    | some value => exact extends_pure value
  intro cs n rest h
  cases cs with
  | nil => cases h
  | cons c cs =>
      rw [number_cons] at h
      simp only [List.cons_append, number_cons]
      split at h
      · next hc =>
          simp only [if_pos hc]
          exact (hunsigned true).cons h
      · next hc =>
          simp only [if_neg hc]
          exact hunsigned false h

/-! ## Strings -/

theorem extends_fourHex : Extends fourHex fourHex := by
  intro cs n rest h
  rw [fourHex.eq_def] at h
  split at h
  · next a b c d tail =>
      split at h
      · next ha hb hc hd =>
          cases h
          refine ⟨⟨[a, b, c, d], rfl⟩, fun more _ => ?_⟩
          simp only [List.cons_append, fourHex, ha, hb, hc, hd]
      · cases h
  · split at h <;> cases h

theorem extends_lowHalf (high : Nat) : Extends (lowHalf high) (lowHalf high) := by
  refine extends_fourHex.andThen fun low => ?_
  split
  · exact extends_pure _
  · exact extends_error _ _

theorem extends_behindHigh (high : Nat) : Extends (behindHigh high) (behindHigh high) := by
  unfold behindHigh
  split
  · exact extends_error _ _
  · split
    · exact extends_pure _
    · intro cs c rest h
      dsimp only at h ⊢
      split at h
      · cases h
      · cases h
      · next cs =>
          obtain ⟨hsuffix, hextended⟩ := extends_lowHalf high h
          exact ⟨hsuffix.trans ⟨['\\', 'u'], rfl⟩, hextended⟩
      · cases h

theorem extends_numbered : Extends numbered numbered := by
  rw [numbered_eq]
  exact extends_fourHex.andThen extends_behindHigh

theorem extends_escapedChar : Extends escapedChar escapedChar := by
  intro cs c rest h
  rw [escapedChar.eq_def] at h
  split at h
  · cases h
  · exact extends_numbered.cons h
  · next letter cs hletter =>
      split at h
      · next hescaped =>
          cases h
          refine ⟨List.suffix_cons _ _, fun more _ => ?_⟩
          rw [List.cons_append, escapedChar]
          · simp only [hescaped]
          · simpa using hletter
      · cases h

theorem extends_stringChars {n m : Nat} (h : n ≤ m) : Extends (stringChars n) (stringChars m) := by
  induction n generalizing m with
  | zero => exact extends_error _ _
  | succ n ih =>
      obtain ⟨m, rfl⟩ : ∃ k, m = k + 1 := ⟨m - 1, by omega⟩
      have hrest := ih (show n ≤ m by omega)
      intro cs chars rest hread
      rw [stringChars.eq_def] at hread
      split at hread
      · contradiction
      · cases hread
      · cases hread
        exact ⟨List.suffix_cons _ _, fun more _ => rfl⟩
      · next hn =>
          cases hn
          exact (extends_escapedChar.andThen fun c => hrest.map (c :: ·)).cons hread
      · next c cs hquote hbackslash hn =>
          cases hn
          split at hread
          · cases hread
          · next hcontrol =>
              obtain ⟨hsuffix, hextended⟩ := (hrest.map (c :: ·)).cons (c := c) hread
              refine ⟨hsuffix, fun more hmore => ?_⟩
              rw [List.cons_append, stringChars, if_neg hcontrol]
              · exact hextended more hmore
              · simpa using hquote
              · simpa using hbackslash

theorem extends_string : Extends string string :=
  extends_of_fuel (fun hle => (extends_stringChars hle).map String.ofList) (by simp)

/-! ## Punctuation -/

section

variable {announced announced' others others' : Reader α}

theorem Extends.markedOr (hannounced : Extends announced announced')
    (hothers : Extends others others') (mark : Char) :
    Extends (Reader.markedOr mark announced others) (Reader.markedOr mark announced' others') := by
  intro cs a rest h
  cases cs with
  | nil => cases h
  | cons c cs =>
      simp only [Reader.markedOr, List.cons_append] at h ⊢
      by_cases hc : c = mark
      · simp only [if_pos hc] at h ⊢
        exact hannounced.cons h
      · simp only [if_neg hc] at h ⊢
        exact hothers h

theorem Extends.numberOr (hannounced : Extends announced announced')
    (hothers : Extends others others') :
    Extends (Reader.numberOr announced others) (Reader.numberOr announced' others') := by
  intro cs a rest h
  cases cs with
  | nil => cases h
  | cons c cs =>
      simp only [Reader.numberOr, List.cons_append] at h ⊢
      by_cases hc : startsNumber c = true
      · simp only [if_pos hc] at h ⊢
        exact hannounced h
      · simp only [if_neg hc] at h ⊢
        exact hothers h

theorem Extends.nested {inside inside' : Nat → Reader α} {depth : Nat}
    (h : ∀ below < depth, Extends (inside below) (inside' below)) :
    Extends (Reader.nested inside depth) (Reader.nested inside' depth) := by
  cases depth with
  | zero => exact extends_error _ _
  | succ below => exact h below (Nat.lt_succ_self below)

theorem Extends.behindComma (h : Extends others others') (hnil : ∀ p, others [] ≠ .ok p) :
    Extends (Reader.behindComma others) (Reader.behindComma others') := by
  intro cs a rest hread
  rw [Reader.behindComma.eq_def] at hread
  split at hread
  · exact (h.afterBlanks hnil).cons hread
  · cases hread

theorem Extends.atQuote (h : Extends others others') :
    Extends (Reader.atQuote others) (Reader.atQuote others') := by
  intro cs a rest hread
  rw [Reader.atQuote.eq_def] at hread
  split at hread
  · cases hread
  · exact h hread
  · cases hread

end

/-! ## Arrays and objects -/

section

variable {item item' : Reader α} {field field' : σ → Reader σ}

theorem extends_itemsFrom (h : Extends item item') {n m : Nat} (hle : n ≤ m) :
    Extends (itemsFrom item n) (itemsFrom item' m) := by
  induction n generalizing m with
  | zero => exact extends_error _ _
  | succ n ih =>
      obtain ⟨m, rfl⟩ : ∃ k, m = k + 1 := ⟨m - 1, by omega⟩
      have hothers := ih (show n ≤ m by omega)
      rw [itemsFrom_succ, itemsFrom_succ]
      refine h.andThen fun x => Extends.afterBlanks ?_ (by simp [behindItem, markedOr])
      exact (extends_pure [x]).markedOr (Extends.behindComma
        ((extends_error _ _).markedOr (hothers.map (x :: ·)) _) (by simp [markedOr])) _

/-- **Items are taken also with more behind them**, if each of them is. -/
theorem extends_items (h : Extends item item') : Extends (items item) (items item') := by
  rw [funext (items_eq item), funext (items_eq item')]
  refine Extends.afterBlanks ?_ (by simp [markedOr])
  exact (extends_pure []).markedOr (extends_of_fuel (extends_itemsFrom h) (by simp)) _

theorem extends_fieldsFrom (h : ∀ state, Extends (field state) (field' state)) {n m : Nat}
    (hle : n ≤ m) (state : σ) : Extends (fieldsFrom field n state) (fieldsFrom field' m state) := by
  induction n generalizing m state with
  | zero => exact extends_error _ _
  | succ n ih =>
      obtain ⟨m, rfl⟩ : ∃ k, m = k + 1 := ⟨m - 1, by omega⟩
      have hothers := ih (show n ≤ m by omega)
      rw [fieldsFrom_succ, fieldsFrom_succ]
      refine (h state).andThen fun state => Extends.afterBlanks ?_ (by simp [behindField, markedOr])
      exact (extends_pure state).markedOr
        (Extends.behindComma (hothers state).atQuote (by simp [atQuote])) _

/-- **Fields are taken also with more behind them**, if each of them is. -/
theorem extends_fields (h : ∀ state, Extends (field state) (field' state)) (state : σ) :
    Extends (fields field state) (fields field' state) := by
  rw [funext (fields_eq field state), funext (fields_eq field' state)]
  refine Extends.afterBlanks ?_ (by simp [markedOr])
  refine (extends_pure state).markedOr (Extends.atQuote ?_) _
  exact extends_of_fuel (fun hle => extends_fieldsFrom h hle state) (by simp)

end

theorem extends_name : Extends name name := by
  intro cs s rest h
  rw [name.eq_def] at h
  split at h
  · exact extends_string.cons h
  · cases h
  · cases h

theorem extends_colon : Extends colon colon := by
  rw [funext colon_eq]
  exact ((extends_pure ()).markedOr (extends_error _ _) _).afterBlanks (by simp [markedOr])

/-! ## Documents -/

theorem extends_anyField {reader reader' : Reader Json} (h : Extends reader reader')
    (before : Entries Json) : Extends (anyField reader before) (anyField reader' before) :=
  extends_name.andThen fun key => extends_colon.andThen fun _ => h.map (before.insert key)

/-- **A document is taken also with more behind it.** -/
theorem extends_value {p : Precision} (depth : Nat) :
    Extends (value p depth) (value p depth) := by
  induction depth using Nat.strongRecOn with
  | _ depth ih =>
      rw [funext (value_eq p depth)]
      refine Extends.afterBlanks ?_ (by simp [markedOr])
      refine (extends_word _ _).markedOr ?_ _
      refine (extends_word _ _).markedOr ?_ _
      refine (extends_word _ _).markedOr ?_ _
      refine (extends_string.map Json.string).markedOr ?_ _
      refine (Extends.nested fun below hbelow => ?_).markedOr ?_ _
      · exact (extends_items (ih below hbelow)).map Json.array
      refine (Extends.nested fun below hbelow => ?_).markedOr ?_ _
      · exact (extends_fields (extends_anyField (ih below hbelow)) []).map Json.object
      exact (extends_number.map Json.number).numberOr (extends_error _ _)

end Reader

end Json

end TraceLog
