import Mathlib.Data.List.DropRight
import TraceLog.Proofs.Json.Parts

/-!
# TraceLog.Proofs.Json.Grammar

The grammar of JSON, and what passes over it.

`IsJson` says which texts are values, whatever they stand for: a number may be
too large for any type, and halves of surrogate pairs may stand alone.  A value
that is not wanted is passed over whenever the grammar admits it, however deep
it is nested.

* `Json.IsNumber` / `Json.IsString` — numbers and strings;
* `Json.Labels` — the name of a field, up to its colon;
* `Json.IsJson` — values, with blanks around them;
* `Json.Reader.takes_skip` — they are passed over.
-/

namespace TraceLog

namespace Json

open Spelling (SomeDigits)

/-! ## The grammar -/

/-- The digits before the point: a zero stands alone. -/
def IsWhole (ds : List Char) : Prop := SomeDigits ds ∧ (ds.head? = some '0' → ds = ['0'])

/-- A point with digits, or nothing. -/
inductive IsFraction : List Char → Prop
  | none : IsFraction []
  | some {ds : List Char} : SomeDigits ds → IsFraction ('.' :: ds)

/-- A mark with digits, which may have a sign, or nothing. -/
inductive IsExponent : List Char → Prop
  | none : IsExponent []
  | some {mark : Char} {sign ds : List Char} : mark = 'e' ∨ mark = 'E' →
    sign = [] ∨ sign = ['+'] ∨ sign = ['-'] → SomeDigits ds → IsExponent (mark :: (sign ++ ds))

/-- A number. -/
inductive IsNumber : List Char → Prop
  | intro {sign whole fraction exponent : List Char} : sign = [] ∨ sign = ['-'] → IsWhole whole →
    IsFraction fraction → IsExponent exponent → IsNumber (sign ++ (whole ++ (fraction ++ exponent)))

/-- A string behind its opening quotation mark. -/
inductive IsString : List Char → Prop
  | closing : IsString ['"']
  | plain {c : Char} {cs : List Char} : c ≠ '"' → c ≠ '\\' → 0x20 ≤ c.toNat → IsString cs →
    IsString (c :: cs)
  | escaped {letter : Char} {cs : List Char} : letter ∈ ['"', '\\', '/', 'b', 'f', 'n', 'r', 't'] →
    IsString cs → IsString ('\\' :: letter :: cs)
  | numbered {a b c d : Char} {cs : List Char} :
    (∀ digit ∈ [a, b, c, d], (Reader.hexValue? digit).isSome = true) → IsString cs →
      IsString ('\\' :: 'u' :: a :: b :: c :: d :: cs)

/-- The name of a field with its colon, given the text of the name behind its
opening quotation mark. -/
inductive Labels (name : List Char) : List Char → Prop
  | intro {before after : List Char} : Blank before → Blank after →
    Labels name (before ++ '"' :: (name ++ (after ++ [':'])))

/-- A value, with blanks around it. -/
inductive IsJson : List Char → Prop
  | padded {before text after : List Char} : Blank before → Blank after → IsJson text →
    IsJson (before ++ (text ++ after))
  | null : IsJson ['n', 'u', 'l', 'l']
  | true : IsJson ['t', 'r', 'u', 'e']
  | false : IsJson ['f', 'a', 'l', 's', 'e']
  | number {text : List Char} : IsNumber text → IsJson text
  | string {text : List Char} : IsString text → IsJson ('"' :: text)
  | array {items : List (List Char)} {gap : List Char} : Blank gap → (∀ item ∈ items, IsJson item) →
    IsJson ('[' :: (commaSeparated items ++ (gap ++ [']'])))
  | object {fields : List (List Char × List Char)} {gap : List Char} : Blank gap →
    (∀ field ∈ fields, ∃ name, IsString name ∧ Labels name field.1) →
    (∀ field ∈ fields, IsJson field.2) →
      IsJson
        ('{' :: (commaSeparated (fields.map fun field => field.1 ++ field.2) ++ (gap ++ ['}'])))

namespace Reader

variable {α : Type}

/-! ## Numbers -/

theorem skipDigits_append {ds rest : List Char} (hds : SomeDigits ds) (hrest : NoDigit rest) :
    skipDigits (ds ++ rest) = .ok ((), rest) := by
  obtain ⟨c, cs, rfl⟩ := List.exists_cons_of_ne_nil hds.1
  have hc : c.isDigit = true := hds.2 c List.mem_cons_self
  have hdigits := digits_append hds.2 hrest
  simp only [digits, Prod.mk.injEq, List.cons_append, List.dropWhile_cons_of_pos hc] at hdigits
  rw [List.cons_append, skipDigits, if_pos hc, hdigits.2]

theorem skipWhole_append {ds rest : List Char} (hds : IsWhole ds) (hrest : NoDigit rest) :
    skipWhole (ds ++ rest) = .ok ((), rest) := by
  by_cases halone : ds = ['0']
  · subst halone
    cases rest with
    | nil => rfl
    | cons c rest =>
        have hc : c.isDigit = false := hrest c rfl
        simp [skipWhole, hc]
  · obtain ⟨c, cs, rfl⟩ := List.exists_cons_of_ne_nil hds.1.1
    have hc : c ≠ '0' := by
      rintro rfl
      exact halone (hds.2 rfl)
    rw [List.cons_append, skipWhole]
    · exact skipDigits_append hds.1 hrest
    · simpa using hc

/-- What follows the digits of a number does not go on with them. -/
theorem noDigit_exponent {exponent rest : List Char} (h : IsExponent exponent)
    (hrest : EndsNumber rest) :
    NoDigit (exponent ++ rest) ∧ ∀ c ∈ (exponent ++ rest).head?, c ≠ '.' := by
  cases h with
  | none => exact ⟨hrest.noDigit, fun c hc => (hrest c hc).2.1⟩
  | some hmark hsign hds => rcases hmark with rfl | rfl <;> simp [NoDigit]

theorem skipExponent_append {exponent rest : List Char} (h : IsExponent exponent)
    (hrest : EndsNumber rest) : skipExponent (exponent ++ rest) = .ok ((), rest) := by
  cases h with
  | none =>
      cases rest with
      | nil => rfl
      | cons c rest =>
          obtain ⟨-, -, he, hE⟩ := hrest c rfl
          simp [skipExponent, he, hE]
  | @some mark sign ds hmark hsign hds =>
      have hdigits := skipDigits_append hds hrest.noDigit
      have hsigned : skipExponent.skipSigned (sign ++ (ds ++ rest)) = .ok ((), rest) := by
        rcases hsign with rfl | rfl | rfl
        · obtain ⟨c, cs, rfl⟩ := List.exists_cons_of_ne_nil hds.1
          have hc : c.isDigit = true := hds.2 c List.mem_cons_self
          rw [List.nil_append, List.cons_append, skipExponent.skipSigned]
          · exact hdigits
          · rintro _ ⟨⟩
            contradiction
          · rintro _ ⟨⟩
            contradiction
        · exact hdigits
        · exact hdigits
      rw [List.cons_append, List.append_assoc]
      rcases hmark with rfl | rfl
      · exact hsigned
      · exact hsigned

theorem skipFraction_append {fraction exponent rest : List Char} (hfraction : IsFraction fraction)
    (hexponent : IsExponent exponent) (hrest : EndsNumber rest) :
    (match fraction ++ (exponent ++ rest) with
      | '.' :: cs => do
        let (_, cs) ← skipDigits cs
        skipExponent cs
      | cs => skipExponent cs : Except Fault (Unit × List Char)) = .ok ((), rest) := by
  obtain ⟨hdigit, hpoint⟩ := noDigit_exponent hexponent hrest
  have hskip := skipExponent_append hexponent hrest
  cases hfraction with
  | none =>
      rw [List.nil_append]
      split
      · next heq => exact absurd rfl (hpoint '.' (by rw [heq]; rfl))
      · exact hskip
  | some hds =>
      rw [List.cons_append]
      simp only [skipDigits_append hds hdigit, bind, Except.bind]
      exact hskip

/-- **A number is passed over.** -/
theorem skipNumber_append {text rest : List Char} (h : IsNumber text) (hrest : EndsNumber rest) :
    skipNumber (text ++ rest) = .ok ((), rest) := by
  cases h with
  | @intro sign whole fraction exponent hsign hwhole hfraction hexponent =>
      have hdigit : NoDigit (fraction ++ (exponent ++ rest)) := by
        cases hfraction with
        | none => exact (noDigit_exponent hexponent hrest).1
        | some hds => simp [NoDigit]
      have hunsigned : (if (sign ++ (whole ++ (fraction ++ (exponent ++ rest)))).head? == some '-'
            then (sign ++ (whole ++ (fraction ++ (exponent ++ rest)))).drop 1
            else sign ++ (whole ++ (fraction ++ (exponent ++ rest)))) =
          whole ++ (fraction ++ (exponent ++ rest)) := by
        rcases hsign with rfl | rfl
        · obtain ⟨c, cs, rfl⟩ := List.exists_cons_of_ne_nil hwhole.1.1
          have hc : c.isDigit = true := hwhole.1.2 c List.mem_cons_self
          have hminus : c ≠ '-' := by
            rintro rfl
            contradiction
          simp [hminus]
        · rfl
      rw [List.append_assoc, List.append_assoc, List.append_assoc, skipNumber, hunsigned]
      simp only [skipWhole_append hwhole hdigit, bind, Except.bind]
      exact skipFraction_append hfraction hexponent hrest

/-! ## Strings -/

theorem fourHex_append {a b c d : Char}
    (h : ∀ digit ∈ [a, b, c, d], (hexValue? digit).isSome = true) (rest : List Char) :
    ∃ n, fourHex (a :: b :: c :: d :: rest) = .ok (n, rest) := by
  simp only [List.forall_mem_cons, Option.isSome_iff_exists] at h
  obtain ⟨⟨a', ha⟩, ⟨b', hb⟩, ⟨c', hc⟩, ⟨d', hd⟩, -⟩ := h
  refine ⟨((a' * 16 + b') * 16 + c') * 16 + d', ?_⟩
  simp only [fourHex, ha, hb, hc, hd]

theorem skipChars_append {text : List Char} (h : IsString text) {fuel : Nat}
    (hfuel : text.length ≤ fuel) (rest : List Char) :
    skipChars fuel (text ++ rest) = .ok ((), rest) := by
  induction h generalizing fuel with
  | closing =>
      obtain ⟨fuel, rfl⟩ : ∃ n, fuel = n + 1 := ⟨fuel - 1, by simp at hfuel; omega⟩
      rfl
  | @plain c cs hquote hbackslash hcontrol _ ih =>
      rw [List.length_cons] at hfuel
      obtain ⟨fuel, rfl⟩ : ∃ n, fuel = n + 1 := ⟨fuel - 1, by omega⟩
      rw [List.cons_append, skipChars, if_neg (Nat.not_lt.2 hcontrol)]
      · exact ih (by omega)
      · simpa using hquote
      · simp [hbackslash]
      · simp [hbackslash]
  | @escaped letter cs hletter _ ih =>
      rw [List.length_cons, List.length_cons] at hfuel
      obtain ⟨fuel, rfl⟩ : ∃ n, fuel = n + 1 := ⟨fuel - 1, by omega⟩
      have hne : letter ≠ 'u' := by
        rintro rfl
        contradiction
      have hescaped : (escaped? letter).isSome = true := by
        simp only [List.mem_cons, List.not_mem_nil, or_false] at hletter
        rcases hletter with rfl | rfl | rfl | rfl | rfl | rfl | rfl | rfl <;> rfl
      rw [List.cons_append, List.cons_append, skipChars, if_neg hne, if_pos hescaped]
      exact ih (by omega)
  | @numbered a b c d cs hdigits _ ih =>
      simp only [List.length_cons] at hfuel
      obtain ⟨fuel, rfl⟩ : ∃ n, fuel = n + 1 := ⟨fuel - 1, by omega⟩
      obtain ⟨n, hfour⟩ := fourHex_append hdigits (cs ++ rest)
      simp only [List.cons_append, skipChars, if_pos, hfour, bind, Except.bind]
      exact ih (by omega)

theorem skipString_append {text : List Char} (h : IsString text) (rest : List Char) :
    skipString (text ++ rest) = .ok ((), rest) := by
  refine skipChars_append h ?_ rest
  rw [List.length_append]
  omega

/-! ## Values -/

/-- A colon is taken with the blanks around the name. -/
theorem colon_append {blanks : List Char} (h : Blank blanks) (rest : List Char) :
    colon (blanks ++ ':' :: rest) = .ok ((), rest) := by
  rw [colon, skipBlank_blank h]
  rfl

/-- The name of a field begins at its quotation mark. -/
theorem takesFrom_labels {name label value : List Char} (h : Labels name label)
    {reader : Reader α} {a : α}
    (htakes : ∀ after, Blank after →
      Takes reader ('"' :: (name ++ (after ++ ':' :: value))) a) :
    TakesFrom (· = '"') reader (label ++ value) a := by
  obtain ⟨hbefore, hafter⟩ := h
  rename_i before after
  refine ⟨'"', name ++ (after ++ ':' :: value), ?_, rfl, htakes after hafter⟩
  simp only [List.append_assoc, List.cons_append, List.nil_append, skipBlank_blank hbefore]
  rfl

/-- A field is passed over once its value is. -/
theorem takes_skipField {skip : Reader Unit} {name after value : List Char} (hname : IsString name)
    (hafter : Blank after) (hvalue : Takes skip value ()) :
    Takes (skipField skip ()) ('"' :: (name ++ (after ++ ':' :: value))) () := by
  intro more hmore
  obtain ⟨blanks, hblanks, hread⟩ := hvalue more hmore
  refine ⟨blanks, hblanks, ?_⟩
  simp only [List.cons_append, List.append_assoc, skipField, skipString_append hname,
    colon_append hafter, hread, bind, Except.bind]

/-- A number begins with a sign or a digit. -/
theorem exists_head_isNumber {text : List Char} (h : IsNumber text) :
    ∃ c tail, text = c :: tail ∧ startsNumber c = true := by
  cases h with
  | @intro sign whole fraction exponent hsign hwhole _ _ =>
      rcases hsign with rfl | rfl
      · obtain ⟨c, cs, rfl⟩ := List.exists_cons_of_ne_nil hwhole.1.1
        have hc : c.isDigit = true := hwhole.1.2 c List.mem_cons_self
        exact ⟨c, cs ++ (fraction ++ exponent), rfl, by simp [startsNumber, hc]⟩
      · exact ⟨'-', whole ++ (fraction ++ exponent), rfl, rfl⟩

/-- A value begins with a character that is not blank and closes nothing. -/
theorem exists_head_isJson {text : List Char} (h : IsJson text) :
    ∃ c tail, skipBlank text = c :: tail ∧ c ≠ ']' := by
  induction h with
  | @padded before text after hbefore _ _ ih =>
      obtain ⟨c, tail, hstart, hc⟩ := ih
      exact ⟨c, tail ++ after, by rw [skipBlank_blank hbefore, skipBlank_append hstart], hc⟩
  | number h =>
      obtain ⟨c, tail, rfl, hstarts⟩ := exists_head_isNumber h
      refine ⟨c, tail, skipBlank_cons (isBlank_of_startsNumber hstarts) tail, ?_⟩
      rintro rfl
      contradiction
  | null | true | false | string | array | object => exact ⟨_, _, rfl, by decide⟩

theorem skipBlank_skipBlank (cs : List Char) : skipBlank (skipBlank cs) = skipBlank cs :=
  List.dropWhile_idempotent _ _

/-- A reader that passes over blanks takes a value from behind them, too. -/
theorem Takes.takesFrom {reader : Reader α} (hreader : ∀ cs, reader (skipBlank cs) = reader cs)
    {first : Char → Prop} {part tail : List Char} {c : Char} {a : α} (h : Takes reader part a)
    (hstart : skipBlank part = c :: tail) (hc : first c) : TakesFrom first reader part a := by
  refine ⟨c, tail, hstart, hc, fun more hmore => ?_⟩
  have hread := h more hmore
  rwa [← hreader, skipBlank_append hstart] at hread

theorem skipNested_skipBlank (depth : Nat) (cs : List Char) :
    skipNested depth (skipBlank cs) = skipNested depth cs := by
  conv_lhs => rw [skipNested, skipBlank_skipBlank]
  conv_rhs => rw [skipNested]

theorem skipNested_number {c : Char} (h : startsNumber c = true) (depth : Nat) (cs : List Char) :
    skipNested depth (c :: cs) = skipNumber (c :: cs) := by
  rw [skipNested, skipBlank_cons (isBlank_of_startsNumber h)]
  split
  case h_1 heq => contradiction
  case h_8 heq =>
    obtain ⟨rfl, rfl⟩ := List.cons.inj heq
    rw [if_pos h]
  -- Each of the other characters begins something else.
  all_goals
    next heq =>
      rw [(List.cons.inj heq).1] at h
      contradiction

/-- A text is no longer than the texts that it stands among. -/
theorem length_le_commaSeparated {part : List Char} {parts : List (List Char)}
    (h : part ∈ parts) : part.length ≤ (commaSeparated parts).length := by
  induction parts using commaSeparated.induct with
  | case1 => contradiction
  | case2 first =>
      rw [List.mem_singleton.1 h, commaSeparated]
  | case3 first others _ ih =>
      rw [commaSeparated, List.length_append, List.length_cons]
      rcases List.mem_cons.1 h with rfl | hmem
      · omega
      · have := ih hmem
        omega
      all_goals assumption

/-- **A value is passed over** wherever it stands, however deep it is nested. -/
theorem takes_skipNested {text : List Char} (h : IsJson text) {depth : Nat}
    (hdepth : text.length ≤ depth) : Takes (skipNested depth) text () := by
  have hblank : Blank [] := by simp [Blank]
  induction h generalizing depth with
  | @padded before text after hbefore hafter _ ih =>
      intro more hmore
      simp only [List.length_append] at hdepth
      obtain ⟨blanks, hblanks, hread⟩ :=
        ih (show text.length ≤ depth by omega) (after ++ more) (endsNumber_blank hafter hmore)
      refine ⟨blanks ++ after, List.forall_mem_append.2 ⟨hblanks, hafter⟩, ?_⟩
      rw [← skipNested_skipBlank] at hread ⊢
      simpa only [List.append_assoc, skipBlank_blank hbefore] using hread
  | null => exact fun more _ => ⟨[], hblank, by cases depth <;> rfl⟩
  | true => exact fun more _ => ⟨[], hblank, by cases depth <;> rfl⟩
  | false => exact fun more _ => ⟨[], hblank, by cases depth <;> rfl⟩
  | number h =>
      refine fun more hmore => ⟨[], hblank, ?_⟩
      have hnumber := skipNumber_append h hmore
      obtain ⟨c, tail, rfl, hstarts⟩ := exists_head_isNumber h
      rw [List.cons_append] at hnumber ⊢
      rw [skipNested_number hstarts, hnumber, List.nil_append]
  | string h =>
      refine fun more _ => ⟨[], hblank, ?_⟩
      have hstring := skipString_append h more
      cases depth <;> exact hstring
  | @array items gap hgap hitems ih =>
      simp only [List.length_cons, List.length_append] at hdepth
      obtain ⟨below, rfl⟩ : ∃ n, depth = n + 1 := ⟨depth - 1, by omega⟩
      have hparts : ∀ item ∈ items, ∃ a, TakesFrom (· ≠ ']') (skipNested below) item a := by
        intro item hitem
        have hlength := length_le_commaSeparated hitem
        obtain ⟨c, tail, hstart, hc⟩ := exists_head_isJson (hitems item hitem)
        exact ⟨(), (ih item hitem (by omega)).takesFrom (skipNested_skipBlank below) hstart hc⟩
      refine fun more _ => ⟨[], hblank, ?_⟩
      obtain ⟨as, hread⟩ := exists_items_parts hgap hparts more
      have harray (cs : List Char) : skipNested (below + 1) ('[' :: cs) =
          (Reader.items (skipNested below) cs >>= fun p => .ok ((), p.2)) := rfl
      simp only [List.cons_append, List.append_assoc, List.nil_append, harray, hread, bind,
        Except.bind]
  | @object fields gap hgap hnames _ ih =>
      simp only [List.length_cons, List.length_append] at hdepth
      obtain ⟨below, rfl⟩ : ∃ n, depth = n + 1 := ⟨depth - 1, by omega⟩
      have hparts : TakesFields (skipField (skipNested below))
          (fields.map fun field => field.1 ++ field.2) () () := by
        refine takesFields_of_forall (List.forall_mem_map.2 fun field hfield => ?_)
        have hlength := length_le_commaSeparated
          (List.mem_map_of_mem (f := fun field => field.1 ++ field.2) hfield)
        rw [List.length_append] at hlength
        obtain ⟨name, hname, hlabel⟩ := hnames field hfield
        exact takesFrom_labels hlabel fun after hafter =>
          takes_skipField hname hafter (ih field hfield (by omega))
      refine fun more _ => ⟨[], hblank, ?_⟩
      simp only [List.cons_append, List.append_assoc, List.nil_append]
      exact fields_parts hparts hgap more

/-- A value that is not wanted is passed over wherever it stands. -/
theorem takes_skip {text : List Char} (h : IsJson text) : Takes skip text () := by
  intro more hmore
  have hlength : text.length ≤ (text ++ more).length + 1 := by
    rw [List.length_append]
    omega
  exact takes_skipNested h hlength more hmore

end Reader

end Json

end TraceLog
