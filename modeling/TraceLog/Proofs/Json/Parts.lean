import Mathlib.Data.List.TakeWhile
import TraceLog.Proofs.Json.Extended
import TraceLog.Proofs.Json.RoundTrip

/-!
# TraceLog.Proofs.Json.Parts

Texts put together from parts.

What a text stands for is asked of the text alone, and holds wherever the text
stands.  The items of an array and the fields of an object are such parts, with
commas between them and blanks anywhere.  The fields of an object take the
reader from one state to the next; if it stops at one of them, then whatever
comes behind does not matter.

* `Json.Reader.Takes` — what a reader takes from a text, wherever it stands;
* `Json.Reader.takes_of_readWith` — it is what the text alone is read as;
* `Json.Reader.exists_items_parts` — the items of an array;
* `Json.Reader.fields_parts` / `fields_parts_error` — the fields of an object.
-/

namespace TraceLog

namespace Json

/-- Spaces, tabs and ends of lines, and nothing else. -/
def Blank (text : List Char) : Prop := ∀ c ∈ text, Reader.isBlank c = true

namespace Reader

variable {α σ : Type}

/-! ## Blanks -/

theorem blank_iff {text : List Char} : Blank text ↔ skipBlank text = [] := by
  rw [skipBlank, List.dropWhile_eq_nil_iff]
  rfl

@[simp] theorem skipBlank_blank {blanks : List Char} (h : Blank blanks) (more : List Char) :
    skipBlank (blanks ++ more) = skipBlank more := by
  rw [skipBlank, List.dropWhile_append_of_pos h]
  rfl

/-- Blanks do not go on with a number. -/
theorem endsNumber_blank {blanks more : List Char} (h : Blank blanks) (hmore : EndsNumber more) :
    EndsNumber (blanks ++ more) := by
  cases blanks with
  | nil => exact hmore
  | cons c blanks =>
      have hc : isBlank c = true := h c List.mem_cons_self
      rintro _ ⟨⟩
      simp only [isBlank, Bool.or_eq_true, beq_iff_eq] at hc
      rcases hc with ((rfl | rfl) | rfl) | rfl <;> decide

/-- There are no more texts than characters, if each stands behind a mark. -/
theorem length_le_flatMap_cons (c : Char) (parts : List (List Char)) :
    parts.length ≤ (parts.flatMap (c :: ·)).length := by
  induction parts with
  | nil => simp
  | cons part parts ih =>
      rw [List.flatMap_cons, List.length_append, List.length_cons, List.length_cons]
      omega

/-! ## Parts -/

/-- The reader takes the value from the text wherever it stands, and leaves
blanks at most. -/
def Takes (reader : Reader α) (text : List Char) (a : α) : Prop :=
  ∀ more, EndsNumber more →
    ∃ blanks, Blank blanks ∧ reader (text ++ more) = .ok (a, blanks ++ more)

/-- **What a text alone is read as is taken from it wherever it stands.** -/
theorem takes_of_readWith {reader reader' : Reader α} (h : Extends reader reader') {text : String}
    {a : α} (hread : readWith reader text = .ok a) : Takes reader' text.toList a := by
  obtain ⟨⟨b, blanks⟩, htake, hend⟩ := exists_of_bind_eq_ok hread
  dsimp only at hend
  split at hend
  · next hblank =>
      cases hend
      exact fun more hmore => ⟨blanks, blank_iff.2 hblank, (h htake).2 more fun _ => hmore⟩
  · cases hend

/-- The same of the text behind the blanks in front, which begins with such a
character. -/
def TakesFrom (first : Char → Prop) (reader : Reader α) (part : List Char) (a : α) : Prop :=
  ∃ c tail, skipBlank part = c :: tail ∧ first c ∧ Takes reader (c :: tail) a

/-- What closes or separates stands behind blanks as it is. -/
theorem skipBlank_mark {blanks : List Char} (h : Blank blanks) {c : Char}
    (hc : c = ',' ∨ c = ']' ∨ c = '}') (more : List Char) :
    skipBlank (blanks ++ c :: more) = c :: more := by
  rw [skipBlank_blank h]
  rcases hc with rfl | rfl | rfl <;> rfl

/-! ## Arrays -/

section Items

variable {item : Reader α} {gap : List Char}

theorem exists_itemsFrom_parts (hgap : Blank gap) {text : List Char} {parts : List (List Char)}
    (hfirst : ∃ a, Takes item text a) (h : ∀ part ∈ parts, ∃ a, TakesFrom (· ≠ ']') item part a)
    {fuel : Nat} (hfuel : parts.length < fuel) (rest : List Char) :
    ∃ as, itemsFrom item fuel (text ++ (parts.flatMap (',' :: ·) ++ (gap ++ ']' :: rest))) =
      .ok (as, rest) := by
  obtain ⟨a, hfirst⟩ := hfirst
  induction parts generalizing text a fuel with
  | nil =>
      obtain ⟨fuel, rfl⟩ : ∃ n, fuel = n + 1 := ⟨fuel - 1, by omega⟩
      obtain ⟨blanks, hblanks, hitem⟩ := hfirst (gap ++ ']' :: rest)
        (endsNumber_blank hgap (endsNumber_cons (by simp) rest))
      refine ⟨[a], ?_⟩
      rw [List.flatMap_nil, List.nil_append, itemsFrom_succ, andThen, hitem]
      simp only [bind, Except.bind, skipBlank_blank hblanks, skipBlank_mark hgap, behindItem,
        markedOr, true_or, or_true, if_true]
  | cons part parts ih =>
      obtain ⟨fuel, rfl⟩ : ∃ n, fuel = n + 1 := ⟨fuel - 1, by omega⟩
      rw [List.forall_mem_cons] at h
      obtain ⟨⟨b, c, tail, hstart, hc, hnext⟩, hothers⟩ := h
      obtain ⟨bs, hrest⟩ := ih hothers (show parts.length < fuel by simpa using hfuel) b hnext
      obtain ⟨blanks, hblanks, hitem⟩ := hfirst
        (',' :: (part ++ (parts.flatMap (',' :: ·) ++ (gap ++ ']' :: rest))))
        (endsNumber_cons (by simp) _)
      refine ⟨a :: bs, ?_⟩
      rw [List.flatMap_cons, List.cons_append, List.cons_append, List.append_assoc, itemsFrom_succ,
        andThen, hitem]
      simp only [bind, Except.bind, skipBlank_mark hblanks, behindItem, markedOr, behindComma,
        skipBlank_append hstart, true_or, if_neg hc]
      rw [List.cons_append] at hrest
      rw [andThen, hrest]
      rfl

/-- **An array is taken part by part.** -/
theorem exists_items_parts (hgap : Blank gap) {parts : List (List Char)}
    (h : ∀ part ∈ parts, ∃ a, TakesFrom (· ≠ ']') item part a) (rest : List Char) :
    ∃ as, items item (commaSeparated parts ++ (gap ++ ']' :: rest)) = .ok (as, rest) := by
  cases parts with
  | nil =>
      refine ⟨[], ?_⟩
      simp [items_eq, commaSeparated, skipBlank_mark hgap, markedOr]
  | cons part parts =>
      rw [List.forall_mem_cons] at h
      obtain ⟨⟨a, c, tail, hstart, hc, htakes⟩, hothers⟩ := h
      have hfuel : parts.length <
          (c :: (tail ++ (parts.flatMap (',' :: ·) ++ (gap ++ ']' :: rest)))).length + 1 := by
        have hparts := length_le_flatMap_cons ',' parts
        simp only [List.length_cons, List.length_append]
        omega
      have hread := exists_itemsFrom_parts hgap ⟨a, htakes⟩ hothers hfuel rest
      rw [List.cons_append] at hread
      simp only [commaSeparated_cons, List.append_assoc, items_eq, skipBlank_append hstart,
        markedOr, if_neg hc]
      exact hread

end Items

/-! ## Objects -/

section Fields

variable {field : σ → Reader σ}

/-- The texts of fields take the reader from one state to another, one field
after the other. -/
inductive TakesFields (field : σ → Reader σ) : List (List Char) → σ → σ → Prop
  | nil (s : σ) : TakesFields field [] s s
  | cons {part : List Char} {parts : List (List Char)} {s t u : σ} :
    TakesFrom (· = '"') (field s) part t → TakesFields field parts t u →
      TakesFields field (part :: parts) s u

variable {s t u : σ} {parts : List (List Char)}

/-- The state may be the same all the time. -/
theorem takesFields_of_forall (h : ∀ part ∈ parts, TakesFrom (· = '"') (field s) part s) :
    TakesFields field parts s s := by
  induction parts with
  | nil => exact .nil s
  | cons part parts ih =>
      rw [List.forall_mem_cons] at h
      exact .cons h.1 (ih h.2)

theorem fieldsFrom_parts {text : List Char} (hfirst : Takes (field s) text t)
    (h : TakesFields field parts t u) (fuel : Nat) {more : List Char} (hmore : EndsNumber more) :
    fieldsFrom field (fuel + 1 + parts.length) s (text ++ (parts.flatMap (',' :: ·) ++ more)) =
      behindField field fuel u (skipBlank more) := by
  induction h generalizing s text with
  | nil t =>
      obtain ⟨blanks, hblanks, hfield⟩ := hfirst more hmore
      simp only [List.flatMap_nil, List.nil_append, List.length_nil, Nat.add_zero, fieldsFrom_succ,
        andThen, hfield, bind, Except.bind, skipBlank_blank hblanks]
  | @cons part parts t v u hpart _ ih =>
      obtain ⟨c, tail, hstart, rfl, htakes⟩ := hpart
      have hread := ih htakes
      obtain ⟨blanks, hblanks, hfield⟩ := hfirst
        (',' :: (part ++ (parts.flatMap (',' :: ·) ++ more))) (endsNumber_cons (by simp) _)
      rw [List.flatMap_cons, List.cons_append, List.cons_append, List.append_assoc,
        List.length_cons, ← Nat.add_assoc, fieldsFrom_succ, andThen, hfield]
      simp only [bind, Except.bind, skipBlank_mark hblanks, behindField, markedOr, behindComma,
        skipBlank_append hstart, true_or, atQuote]
      exact hread

theorem exists_fields_parts (h : TakesFields field parts s u) (hparts : parts ≠ [])
    {more : List Char} (hmore : EndsNumber more) :
    ∃ fuel, more.length ≤ fuel ∧
      fields field s (commaSeparated parts ++ more) =
        behindField field fuel u (skipBlank more) := by
  cases h with
  | nil => exact absurd rfl hparts
  | @cons part parts _ t _ hpart hothers =>
      obtain ⟨c, tail, hstart, rfl, htakes⟩ := hpart
      have hlength := length_le_flatMap_cons ',' parts
      obtain ⟨fuel, hfuel, hle⟩ : ∃ fuel,
          ('"' :: (tail ++ (parts.flatMap (',' :: ·) ++ more))).length = fuel + 1 + parts.length ∧
            more.length ≤ fuel := by
        simp only [List.length_cons, List.length_append]
        exact ⟨tail.length + (parts.flatMap (',' :: ·)).length + more.length - parts.length,
          by omega, by omega⟩
      have hread := fieldsFrom_parts htakes hothers fuel hmore
      rw [List.cons_append] at hread
      refine ⟨fuel, hle, ?_⟩
      simp only [commaSeparated_cons, List.append_assoc, fields_eq, skipBlank_append hstart,
        markedOr, atQuote, hfuel]
      exact hread

/-- **An object is taken part by part.** -/
theorem fields_parts (h : TakesFields field parts s u) {gap : List Char} (hgap : Blank gap)
    (rest : List Char) :
    fields field s (commaSeparated parts ++ (gap ++ '}' :: rest)) = .ok (u, rest) := by
  by_cases hparts : parts = []
  · subst hparts
    cases h
    simp only [fields_eq, commaSeparated, List.nil_append, skipBlank_mark hgap, or_true, markedOr,
      if_true]
  · have hends : EndsNumber (gap ++ '}' :: rest) :=
      endsNumber_blank hgap (endsNumber_cons (by simp) rest)
    obtain ⟨fuel, -, hread⟩ := exists_fields_parts h hparts hends
    rw [hread, skipBlank_mark hgap (.inr (.inr rfl)), behindField, markedOr, if_pos rfl]

theorem fieldsFrom_error {fault : Fault} {text : List Char} (h : field s text = .error fault)
    (fuel : Nat) : fieldsFrom field (fuel + 1) s text = .error fault := by
  rw [fieldsFrom_succ, andThen, h]
  rfl

/-- **A fault in a field comes before all that is behind it.** -/
theorem fields_parts_error (h : TakesFields field parts s u) {part tail : List Char}
    (hpart : skipBlank part = '"' :: tail) {fault : Fault}
    (hfault : ∀ more, field u ('"' :: (tail ++ more)) = .error fault) (others : List (List Char))
    (more : List Char) :
    fields field s (commaSeparated (parts ++ part :: others) ++ more) = .error fault := by
  cases hparts : parts with
  | nil =>
      subst hparts
      cases h
      simp only [List.nil_append, commaSeparated_cons, List.append_assoc, fields_eq,
        skipBlank_append hpart, markedOr, atQuote]
      exact fieldsFrom_error (hfault _) _
  | cons first parts' =>
      rw [hparts] at h
      have hends : EndsNumber (',' :: (part ++ (others.flatMap (',' :: ·) ++ more))) :=
        endsNumber_cons (by simp) _
      obtain ⟨fuel, hfuel, hread⟩ := exists_fields_parts h (by simp) hends
      obtain ⟨fuel, rfl⟩ : ∃ n, fuel = n + 1 := ⟨fuel - 1, by rw [List.length_cons] at hfuel; omega⟩
      have htext : commaSeparated (first :: parts' ++ part :: others) ++ more =
          commaSeparated (first :: parts') ++
            ',' :: (part ++ (others.flatMap (',' :: ·) ++ more)) := by
        simp [commaSeparated_cons]
      rw [htext, hread, skipBlank_cons rfl]
      simp only [behindField, markedOr, behindComma, skipBlank_append hpart, atQuote]
      exact fieldsFrom_error (hfault _) _

end Fields

end Reader

end Json

end TraceLog
