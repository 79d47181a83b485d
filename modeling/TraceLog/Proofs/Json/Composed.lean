import TraceLog.Json.Read

/-!
# TraceLog.Proofs.Json.Composed

The readers as compositions.

A reader looks at one character, behind blanks or not, and chooses what comes
next.  Said with a few ways to put readers together, a number is a part behind
another, the items of an array are a reader of an item behind another, and a
document is what its first character announces.  Whatever the ways of putting
readers together keep, the readers keep.

* `Json.Reader.andThen` — two readers, one behind the other;
* `Json.Reader.marked` / `markedOr` — what a mark announces;
* `Json.Reader.number_cons` — numbers;
* `Json.Reader.itemsFrom_succ` / `fieldsFrom_succ` — arrays and objects;
* `Json.Reader.value_eq` — documents.
-/

namespace TraceLog

namespace Json

namespace Reader

variable {α β σ : Type}

/-- Two readers, one behind the other. -/
def andThen (first : Reader α) (second : α → Reader β) : Reader β :=
  fun cs => first cs >>= fun p => second p.1 p.2

/-! ## Numbers -/

/-- A part of a number that its mark announces, if it is there. -/
def marked (mark : Char → Bool) (reader : Reader α) (absent : α) : Reader α
  | [] => .ok (absent, [])
  | c :: cs => if mark c then reader cs else .ok (absent, c :: cs)

/-- The value of a number from its parts, if it has one. -/
def numberOf? (p : Precision) (negative : Bool) (whole : List Char) (fraction : Bool × List Char)
    (exponent : Option Int) : Option Number :=
  if fraction.1 || exponent.isSome then floatNumber p negative whole fraction.2 (exponent.getD 0)
  else integerNumber p negative whole

/-- A number behind its sign, part by part. -/
def unsigned (p : Precision) (negative : Bool) : Reader Number :=
  wholeDigits.andThen fun whole =>
    (marked (· == '.') (someDigits.andThen fun ds cs => .ok ((true, ds), cs)) (false, [])).andThen
      fun fraction =>
        (marked (fun c => c == 'e' || c == 'E')
          (Reader.andThen exponentValue fun e cs => .ok (some e, cs)) none).andThen
            fun exponent cs =>
              match numberOf? p negative whole fraction exponent with
              | some value => .ok (value, cs)
              | none => .error .malformed

theorem fractionDigits_eq_marked (cs : List Char) :
    (fractionDigits cs >>= fun p => .ok ((cs.head? == some '.', p.1), p.2)) =
      marked (· == '.') (someDigits.andThen fun ds cs => .ok ((true, ds), cs)) (false, []) cs := by
  rw [fractionDigits.eq_def]
  split
  · rfl
  · next hpoint =>
      cases cs with
      | nil => rfl
      | cons c cs =>
          have hc : c ≠ '.' := fun h => hpoint cs (h ▸ rfl)
          simp [marked, hc, bind, Except.bind]

theorem exponent_eq_marked (next : Option Int × List Char → Except Fault (β × List Char))
    (cs : List Char) :
    (match cs with
      | 'e' :: rest => exponentValue rest >>= fun p => pure (some p.1, p.2) >>= next
      | 'E' :: rest => exponentValue rest >>= fun p => pure (some p.1, p.2) >>= next
      | rest => pure (none, rest) >>= next) =
      marked (fun c => c == 'e' || c == 'E')
        (Reader.andThen exponentValue fun e cs => .ok (some e, cs)) none cs >>= next := by
  split
  · next rest => exact (bind_assoc (exponentValue rest) _ _).symm
  · next rest => exact (bind_assoc (exponentValue rest) _ _).symm
  · next hlower hupper =>
      cases cs with
      | nil => rfl
      | cons c cs =>
          have hlower : c ≠ 'e' := fun h => hlower cs (h ▸ rfl)
          have hupper : c ≠ 'E' := fun h => hupper cs (h ▸ rfl)
          simp [marked, hlower, hupper, pure, Except.pure]

theorem number_cons (p : Precision) (c : Char) (cs : List Char) :
    number p (c :: cs) = if c = '-' then unsigned p true cs else unsigned p false (c :: cs) := by
  unfold number
  split
  rename_i negative digits hsign
  have hunsigned : (if c = '-' then unsigned p true cs else unsigned p false (c :: cs)) =
      unsigned p negative digits := by
    split at hsign
    · next heq =>
        cases heq
        cases hsign
        rfl
    · next hminus =>
        cases hsign
        have hc : c ≠ '-' := fun h => hminus cs (h ▸ rfl)
        rw [if_neg hc]
  rw [hunsigned, unsigned, andThen]
  refine bind_congr fun _ => ?_
  rw [andThen, ← fractionDigits_eq_marked, bind_assoc]
  refine bind_congr fun q => ?_
  exact exponent_eq_marked _ q.2

/-! ## Strings -/

/-- The second half of a pair of surrogates, its mark read. -/
def lowHalf (high : Nat) : Reader Char :=
  fourHex.andThen fun low cs =>
    if 0xDC00 ≤ low ∧ low < 0xE000 then
      .ok (Char.ofNat (0x10000 + (high - 0xD800) * 0x400 + (low - 0xDC00)), cs)
    else .error .malformed

/-- What stands behind the first four digits of a character. -/
def behindHigh (high : Nat) : Reader Char := fun cs =>
  if 0xDC00 ≤ high ∧ high < 0xE000 then .error .malformed
  else if high < 0xD800 ∨ 0xE000 ≤ high then .ok (Char.ofNat high, cs)
  else match cs with
    | [] => .error .cutShort
    | ['\\'] => .error .cutShort
    | '\\' :: 'u' :: cs => lowHalf high cs
    | _ => .error .malformed

theorem numbered_eq : numbered = fourHex.andThen behindHigh := rfl

/-! ## Punctuation -/

/-- What a mark announces, or something else. -/
def markedOr (mark : Char) (announced others : Reader α) : Reader α
  | [] => .error .cutShort
  | c :: cs => if c = mark then announced cs else others (c :: cs)

/-- A number, or something else. -/
def numberOr (counted others : Reader α) : Reader α
  | [] => .error .cutShort
  | c :: cs => if startsNumber c then counted (c :: cs) else others (c :: cs)

/-- What takes one level of nesting, if any is left. -/
def nested (inside : Nat → Reader α) : Nat → Reader α
  | 0 => fun _ => .error .malformed
  | depth + 1 => inside depth

/-- What stands at a comma, which has to be there. -/
def behindComma (others : Reader α) : Reader α
  | ',' :: cs => others (skipBlank cs)
  | _ => .error .malformed

/-- What stands at a quotation mark, which has to be there. -/
def atQuote (others : Reader α) : Reader α
  | [] => .error .cutShort
  | '"' :: cs => others ('"' :: cs)
  | _ => .error .malformed

theorem colon_eq (cs : List Char) : colon cs =
    markedOr ':' (fun cs => .ok ((), cs)) (fun _ => .error .malformed) (skipBlank cs) := by
  rw [colon]
  cases skipBlank cs with
  | nil => rfl
  | cons c cs =>
      by_cases hc : c = ':'
      · simp [markedOr, hc]
      · simp [markedOr, hc]

/-! ## Arrays and objects -/

/-- What follows an item of an array. -/
def behindItem (item : Reader α) (fuel : Nat) (x : α) : Reader (List α) :=
  markedOr ']' (fun cs => .ok ([x], cs)) <| behindComma <|
    markedOr ']' (fun _ => .error .malformed) <|
      (itemsFrom item fuel).andThen fun xs cs => .ok (x :: xs, cs)

theorem itemsFrom_succ (item : Reader α) (fuel : Nat) :
    itemsFrom item (fuel + 1) = item.andThen fun x cs => behindItem item fuel x (skipBlank cs) := by
  funext cs
  rw [itemsFrom]
  refine bind_congr fun p => ?_
  dsimp only [behindItem]
  cases skipBlank p.2 with
  | nil => rfl
  | cons c cs =>
      by_cases hbracket : c = ']'
      · simp [markedOr, hbracket]
      · by_cases hcomma : c = ','
        · subst hcomma
          cases hnext : skipBlank cs with
          | nil => simp [markedOr, behindComma, hnext]
          | cons d ds =>
              by_cases hd : d = ']'
              · simp [markedOr, behindComma, hnext, hd]
              · simp [markedOr, behindComma, hnext, hd, andThen]
        · simp [markedOr, behindComma, hbracket, hcomma]

theorem items_eq (item : Reader α) (cs : List Char) :
    items item cs = markedOr ']' (fun cs => .ok ([], cs))
      (fun cs => itemsFrom item (cs.length + 1) cs) (skipBlank cs) := by
  rw [items]
  cases skipBlank cs with
  | nil => rfl
  | cons c cs =>
      by_cases hbracket : c = ']'
      · simp [markedOr, hbracket]
      · simp [markedOr, hbracket]

/-- What follows a field of an object. -/
def behindField (field : σ → Reader σ) (fuel : Nat) (state : σ) : Reader σ :=
  markedOr '}' (fun cs => .ok (state, cs)) <| behindComma <| atQuote <| fieldsFrom field fuel state

theorem fieldsFrom_succ (field : σ → Reader σ) (fuel : Nat) (state : σ) :
    fieldsFrom field (fuel + 1) state =
      (field state).andThen fun state cs => behindField field fuel state (skipBlank cs) := by
  funext cs
  rw [fieldsFrom]
  refine bind_congr fun p => ?_
  dsimp only [behindField]
  cases skipBlank p.2 with
  | nil => rfl
  | cons c cs =>
      by_cases hbrace : c = '}'
      · simp [markedOr, hbrace]
      · by_cases hcomma : c = ','
        · subst hcomma
          simp only [markedOr, behindComma, atQuote]
          rfl
        · simp [markedOr, behindComma, hbrace, hcomma]

theorem fields_eq (field : σ → Reader σ) (state : σ) (cs : List Char) :
    fields field state cs = markedOr '}' (fun cs => .ok (state, cs))
      (atQuote fun cs => fieldsFrom field cs.length state cs) (skipBlank cs) := by
  rw [fields]
  cases skipBlank cs with
  | nil => rfl
  | cons c cs =>
      by_cases hbrace : c = '}'
      · simp [markedOr, hbrace]
      · by_cases hquote : c = '"'
        · simp [markedOr, atQuote, hquote]
        · simp [markedOr, atQuote, hbrace, hquote]

/-! ## Documents -/

theorem value_eq (p : Precision) (depth : Nat) (cs : List Char) : value p depth cs = (
    markedOr 'n' (word ['u', 'l', 'l'] .null) <|
    markedOr 't' (word ['r', 'u', 'e'] (.bool true)) <|
    markedOr 'f' (word ['a', 'l', 's', 'e'] (.bool false)) <|
    markedOr '"' (Reader.andThen string fun s cs => .ok (.string s, cs)) <|
    markedOr '[' (nested (fun below => Reader.andThen (items (value p below)) fun xs cs =>
      .ok (.array xs, cs)) depth) <|
    markedOr '{' (nested (fun below => Reader.andThen (fields (anyField (value p below)) [])
      fun entries cs => .ok (.object entries, cs)) depth) <|
    numberOr (Reader.andThen (number p) fun n cs => .ok (.number n, cs)) fun _ => .error .malformed)
      (skipBlank cs) := by
  rw [value]
  split <;> rename_i heq <;> rw [heq]
  case h_6 | h_7 => cases depth <;> rfl
  case h_8 => simp_all [markedOr, numberOr, andThen]
  all_goals rfl

end Reader

end Json

end TraceLog
