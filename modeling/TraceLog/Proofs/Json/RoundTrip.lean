import Mathlib.Data.List.Forall2
import TraceLog.Json.Read
import TraceLog.Proofs.Json.Legible
import TraceLog.Proofs.Json.Strings

/-!
# TraceLog.Proofs.Json.RoundTrip

Documents read back from their texts.

A document is taken from the front of a text whenever it is not a number that
goes on behind it.  Arrays and objects take their parts one after the other,
and an object gets its fields back in ascending order, which is the order that
they had.

How arrays and objects are taken apart is said for any reader of an item or of
a field, since settings are read as streams too.

* `Entries.ofPairs_of_ascending` — ascending entries are inserted as they are;
* `Json.Reader.Reads` — a reader takes a value from the text of a document;
* `Json.Reader.exists_write_array` / `exists_write_object` — from that of an
  array or an object, part by part;
* `Json.Reader.reads_value` — an ordered document is read from the front of a
  text as one with the same parts, up to its depth;
* `Json.read_render` — and as itself if its numbers are read back.
-/

namespace TraceLog

namespace Entries

variable {α : Type}

/-- A key above all others goes behind them. -/
theorem insert_of_forall_lt {entries : Entries α} {key : String} (value : α)
    (h : ∀ entry ∈ entries, entry.1 < key) :
    entries.insert key value = entries ++ [(key, value)] := by
  induction entries with
  | nil => rfl
  | cons entry entries ih =>
      obtain ⟨k, v⟩ := entry
      have hk : k < key := h (k, v) List.mem_cons_self
      have hne : key ≠ k := fun heq => String.lt_irrefl k (heq ▸ hk)
      have hnlt : ¬key < k := fun hlt => String.lt_irrefl k (String.lt_trans hk hlt)
      have hrest := ih fun entry hentry => h entry (List.mem_cons_of_mem _ hentry)
      rw [insert, if_neg hne, if_neg hnlt, hrest, List.cons_append]

/-- Ascending entries go behind those that are all below them. -/
theorem insertAll_of_ascending {entries pairs : Entries α}
    (h : Ascending (entries ++ pairs)) : entries.insertAll pairs = entries ++ pairs := by
  induction pairs generalizing entries with
  | nil => simp
  | cons pair pairs ih =>
      have hbelow : ∀ entry ∈ entries, entry.1 < pair.1 := by
        intro entry hentry
        exact (List.pairwise_append.1 h).2.2 entry hentry pair List.mem_cons_self
      rw [insertAll_cons, insert_of_forall_lt pair.2 hbelow]
      have hsplit : entries ++ [(pair.1, pair.2)] ++ pairs = entries ++ pair :: pairs := by simp
      rw [← hsplit] at h
      rw [ih h, hsplit]

/-- Ascending entries are inserted as they are. -/
theorem ofPairs_of_ascending {pairs : Entries α} (h : pairs.Ascending) : ofPairs pairs = pairs :=
  insertAll_of_ascending h

/-- Whether entries ascend depends on their keys alone. -/
theorem ascending_iff_keys (entries : Entries α) :
    entries.Ascending ↔ (entries.map (·.1)).Pairwise (· < ·) := by
  rw [Ascending, List.pairwise_map]

end Entries

namespace Json

/-- Fields that are read under the same keys ascend if these do. -/
theorem ValuesReadAs.ascending {p : Precision} {entries others : List (String × Json)}
    (h : ValuesReadAs p entries others) (hascending : Entries.Ascending entries) :
    Entries.Ascending others := by
  rwa [Entries.ascending_iff_keys, h.keys_eq, ← Entries.ascending_iff_keys]

namespace Reader

/-- The reader takes the value from the front of any text that begins with the
document and does not go on with it. -/
def Reads {α : Type} (reader : Reader α) (document : Json) (a : α) : Prop :=
  ∀ rest, EndsNumber rest → reader (document.write rest) = .ok (a, rest)

variable {p : Precision}

/-! ## Documents without parts -/

theorem reads_value_null (depth : Nat) : Reads (value p depth) .null .null := fun _ _ => by
  cases depth <;> rfl

theorem reads_value_bool (depth : Nat) (b : Bool) :
    Reads (value p depth) (.bool b) (.bool b) := fun _ _ => by
  cases depth <;> cases b <;> rfl

theorem reads_value_string (depth : Nat) (s : String) :
    Reads (value p depth) (.string s) (.string s) := by
  intro rest _
  have hstring := string_quote s rest
  have htext : (Json.string s).write rest = '"' :: (escape s.toList ++ '"' :: rest) :=
    quote_append s rest
  have hblank : skipBlank ('"' :: (escape s.toList ++ '"' :: rest)) =
      '"' :: (escape s.toList ++ '"' :: rest) := rfl
  rw [htext, value, hblank]
  simp only [hstring, bind, Except.bind]

theorem isBlank_of_startsNumber {c : Char} (h : startsNumber c = true) : isBlank c = false := by
  by_contra hblank
  simp only [isBlank, Bool.not_eq_false, Bool.or_eq_true, beq_iff_eq] at hblank
  rcases hblank with ((rfl | rfl) | rfl) | rfl <;> contradiction

/-- A text is where its first character is not blank. -/
theorem skipBlank_cons {c : Char} (h : isBlank c = false) (cs : List Char) :
    skipBlank (c :: cs) = c :: cs := by
  simp [skipBlank, h]

/-- A number is recognized by its first character. -/
theorem reads_value_number (depth : Nat) {n m : Number} (h : n.ReadAs p m) :
    Reads (value p depth) (.number n) (.number m) := by
  intro rest hrest
  have hnumber := h.append hrest
  obtain ⟨c, cs, htext, hstarts⟩ := exists_startsNumber n
  rw [htext, List.cons_append] at hnumber
  rw [write, htext, List.cons_append, value, skipBlank_cons (isBlank_of_startsNumber hstarts)]
  split
  case h_1 heq => contradiction
  case h_8 heq =>
    obtain ⟨rfl, rfl⟩ := List.cons.inj heq
    simp only [if_pos hstarts, hnumber, bind, Except.bind]
  -- Each of the other characters begins something else.
  all_goals
    next heq =>
      rw [(List.cons.inj heq).1] at hstarts
      contradiction

/-! ## Arrays -/

/-- A document begins with a character that is not blank and closes nothing;
`null` alone begins with its letter. -/
theorem exists_head (document : Json) (rest : List Char) :
    ∃ c cs, document.write rest = c :: cs ∧ isBlank c = false ∧ c ≠ ']' ∧
      (document ≠ .null → c ≠ 'n') := by
  match document with
  | .null => exact ⟨_, _, rfl, rfl, by decide, fun h => absurd rfl h⟩
  | .bool true => exact ⟨_, _, rfl, rfl, by decide, fun _ => by decide⟩
  | .bool false => exact ⟨_, _, rfl, rfl, by decide, fun _ => by decide⟩
  | .string _ => exact ⟨_, _, rfl, rfl, by decide, fun _ => by decide⟩
  | .array [] => exact ⟨_, _, rfl, rfl, by decide, fun _ => by decide⟩
  | .array (_ :: _) => exact ⟨_, _, rfl, rfl, by decide, fun _ => by decide⟩
  | .object [] => exact ⟨_, _, rfl, rfl, by decide, fun _ => by decide⟩
  | .object (_ :: _) => exact ⟨_, _, rfl, rfl, by decide, fun _ => by decide⟩
  | .number n =>
    obtain ⟨c, cs, htext, hstarts⟩ := exists_startsNumber n
    refine ⟨c, cs ++ rest, ?_, isBlank_of_startsNumber hstarts, ?_, fun _ => ?_⟩
    · rw [write, htext, List.cons_append]
    all_goals
      rintro rfl
      contradiction

/-- What closes or separates does not go on with a number. -/
theorem endsNumber_cons {c : Char} (h : c = ',' ∨ c = ']' ∨ c = '}') (rest : List Char) :
    EndsNumber (c :: rest) := by
  rintro _ ⟨⟩
  rcases h with rfl | rfl | rfl <;> decide

/-- Every item has a text in front of what follows. -/
theorem length_writeItems (items : List Json) (rest : List Char) :
    items.length ≤ (writeItems items rest).length := by
  induction items with
  | nil => simp
  | cons item items ih =>
      rw [writeItems, write_eq_render]
      simp only [List.length_cons, List.length_append]
      omega

section Items

variable {α : Type} {reader : Reader α}

/-- Items are read one after the other. -/
theorem itemsFrom_write {document : Json} {documents : List Json} {item : α} {items : List α}
    (h : Reads reader document item) (hothers : List.Forall₂ (Reads reader) documents items)
    {fuel : Nat} (hfuel : documents.length < fuel) (rest : List Char) :
    itemsFrom reader fuel (document.write (writeItems documents (']' :: rest))) =
      .ok (item :: items, rest) := by
  induction hothers generalizing document item fuel with
  | nil =>
      obtain ⟨fuel, rfl⟩ : ∃ n, fuel = n + 1 := ⟨fuel - 1, by omega⟩
      have hitem := h (']' :: rest) (endsNumber_cons (by simp) rest)
      have hblank : skipBlank (']' :: rest) = ']' :: rest := rfl
      simp only [writeItems, itemsFrom, hitem, hblank, bind, Except.bind]
  | @cons next _ documents items hnext _ ih =>
      obtain ⟨fuel, rfl⟩ : ∃ n, fuel = n + 1 := ⟨fuel - 1, by omega⟩
      have hread := ih hnext (show documents.length < fuel by simpa using hfuel)
      obtain ⟨c, cs, htext, hstart, hclose, -⟩ :=
        exists_head next (writeItems documents (']' :: rest))
      rw [htext] at hread
      have hitem := h (',' :: c :: cs) (endsNumber_cons (by simp) _)
      have hcomma : skipBlank (',' :: c :: cs) = ',' :: c :: cs := rfl
      simp only [writeItems, htext, itemsFrom, hitem, hcomma, skipBlank_cons hstart, bind,
        Except.bind]
      split
      · contradiction
      · next heq => exact absurd (List.cons.inj heq).1 hclose
      · rw [hread]

/-- **An array is read once its items are**, whatever they stand for. -/
theorem exists_write_array {documents : List Json} {items : List α}
    (h : List.Forall₂ (Reads reader) documents items) (rest : List Char) :
    ∃ text, (array documents).write rest = '[' :: text ∧
      Reader.items reader text = .ok (items, rest) := by
  cases h with
  | nil => exact ⟨']' :: rest, rfl, rfl⟩
  | @cons first item others items hfirst hothers =>
      refine ⟨_, rfl, ?_⟩
      have hlength := length_writeItems others (']' :: rest)
      have hfuel : others.length <
          (first.write (writeItems others (']' :: rest))).length + 1 := by
        rw [write_eq_render, List.length_append]
        omega
      have hread := itemsFrom_write hfirst hothers hfuel rest
      obtain ⟨c, cs, htext, hstart, hclose, -⟩ :=
        exists_head first (writeItems others (']' :: rest))
      rw [htext] at hread ⊢
      rw [Reader.items, skipBlank_cons hstart]
      split
      · contradiction
      · next heq => exact absurd (List.cons.inj heq).1 hclose
      · exact hread

end Items

/-- An array is read once its items are. -/
theorem reads_value_array {depth : Nat} {documents others : List Json}
    (h : List.Forall₂ (Reads (value p depth)) documents others) :
    Reads (value p (depth + 1)) (.array documents) (.array others) := by
  intro rest _
  obtain ⟨text, htext, hitems⟩ := exists_write_array h rest
  have hbracket : skipBlank ('[' :: text) = '[' :: text := rfl
  rw [htext, value, hbracket]
  simp only [hitems, bind, Except.bind]

/-! ## Objects -/

/-- Every field has a text in front of what follows. -/
theorem length_writeFields (fields : List (String × Json)) (rest : List Char) :
    fields.length ≤ (writeFields fields rest).length := by
  induction fields with
  | nil => simp
  | cons field fields ih =>
      rw [writeFields, write_eq_render]
      simp only [List.length_cons, List.length_append]
      omega

section Fields

variable {σ : Type} {field : σ → Reader σ} {s t u : σ}

/-- The text of an entry takes the field reader from one state to another. -/
def ReadsField (field : σ → Reader σ) (entry : String × Json) (s t : σ) : Prop :=
  ∀ rest, EndsNumber rest →
    field s (quote entry.1 ++ ':' :: entry.2.write rest) = .ok (t, rest)

/-- The texts of entries take the field reader from one state to another, one
entry after the other. -/
inductive ReadsFields (field : σ → Reader σ) : List (String × Json) → σ → σ → Prop
  | nil (s : σ) : ReadsFields field [] s s
  | cons {entry : String × Json} {entries : List (String × Json)} {s t u : σ} :
    ReadsField field entry s t → ReadsFields field entries t u →
      ReadsFields field (entry :: entries) s u

/-- Fields are read one after the other. -/
theorem fieldsFrom_write {entry : String × Json} {entries : List (String × Json)}
    (h : ReadsField field entry s t) (hothers : ReadsFields field entries t u) {fuel : Nat}
    (hfuel : entries.length < fuel) (rest : List Char) :
    fieldsFrom field fuel s
        (quote entry.1 ++ ':' :: entry.2.write (writeFields entries ('}' :: rest))) =
      .ok (u, rest) := by
  induction hothers generalizing entry s fuel with
  | nil t =>
      obtain ⟨fuel, rfl⟩ : ∃ n, fuel = n + 1 := ⟨fuel - 1, by omega⟩
      have hfield := h ('}' :: rest) (endsNumber_cons (by simp) rest)
      have hblank : skipBlank ('}' :: rest) = '}' :: rest := rfl
      simp only [writeFields, fieldsFrom, hfield, hblank, bind, Except.bind]
  | @cons next entries t v u hnext _ ih =>
      obtain ⟨fuel, rfl⟩ : ∃ n, fuel = n + 1 := ⟨fuel - 1, by omega⟩
      have hread := ih hnext (show entries.length < fuel by simpa using hfuel)
      obtain ⟨name, document⟩ := next
      have hquote := quote_append name (':' :: document.write (writeFields entries ('}' :: rest)))
      generalize escape name.toList ++ '"' :: ':' ::
        document.write (writeFields entries ('}' :: rest)) = tail at hquote
      have hfield := h (',' :: '"' :: tail) (endsNumber_cons (by simp) _)
      have hcomma : skipBlank (',' :: '"' :: tail) = ',' :: '"' :: tail := rfl
      have hstart : skipBlank ('"' :: tail) = '"' :: tail := rfl
      rw [hquote] at hread
      simp only [writeFields, hquote, fieldsFrom, hfield, hcomma, hstart, hread, bind, Except.bind]

/-- **An object is read once its fields are**, whatever they stand for. -/
theorem exists_write_object {entries : List (String × Json)} (h : ReadsFields field entries s t)
    (rest : List Char) :
    ∃ text, (object entries).write rest = '{' :: text ∧
      Reader.fields field s text = .ok (t, rest) := by
  cases h with
  | nil => exact ⟨'}' :: rest, rfl, rfl⟩
  | @cons first others _ _ _ hfirst hothers =>
      refine ⟨_, rfl, ?_⟩
      obtain ⟨name, document⟩ := first
      have hlength := length_writeFields others ('}' :: rest)
      have hquote := quote_append name (':' :: document.write (writeFields others ('}' :: rest)))
      generalize htext : escape name.toList ++ '"' :: ':' ::
        document.write (writeFields others ('}' :: rest)) = tail at hquote
      have hfuel : others.length < tail.length + 1 := by
        rw [← htext, write_eq_render]
        simp only [List.length_cons, List.length_append]
        omega
      have hread := fieldsFrom_write hfirst hothers hfuel rest
      have hstart : skipBlank ('"' :: tail) = '"' :: tail := rfl
      rw [hquote] at hread ⊢
      rw [Reader.fields, hstart]
      exact hread

end Fields

/-- The field is read as the other one, which has the same key. -/
def ReadsEntry (p : Precision) (depth : Nat) (entry other : String × Json) : Prop :=
  other.1 = entry.1 ∧ Reads (value p depth) entry.2 other.2

/-- A field is added to those before it. -/
theorem readsField_anyField {depth : Nat} {entry other : String × Json}
    (h : ReadsEntry p depth entry other) (before : Entries Json) :
    ReadsField (anyField (value p depth)) entry before (before.insert other.1 other.2) := by
  intro rest hrest
  have hname := string_quote entry.1 (':' :: entry.2.write rest)
  have hcolon : skipBlank (':' :: entry.2.write rest) = ':' :: entry.2.write rest := rfl
  rw [quote_append, h.1]
  simp only [anyField, Reader.name, hname, colon, hcolon, h.2 rest hrest, bind, Except.bind]

/-- Fields are added to those before them. -/
theorem readsFields_anyField {depth : Nat} {entries others : List (String × Json)}
    (h : List.Forall₂ (ReadsEntry p depth) entries others) (before : Entries Json) :
    ReadsFields (anyField (value p depth)) entries before (before.insertAll others) := by
  induction h generalizing before with
  | nil => exact .nil before
  | cons hentry _ ih => exact .cons (readsField_anyField hentry before) (ih _)

/-- The entries of an object are read once their values are. -/
theorem readsFields_entries {depth : Nat} {entries others : List (String × Json)}
    (hascending : Entries.Ascending others)
    (h : List.Forall₂ (ReadsEntry p depth) entries others) :
    ReadsFields (anyField (value p depth)) entries [] others := by
  have hread := readsFields_anyField h []
  rwa [← Entries.ofPairs, Entries.ofPairs_of_ascending hascending] at hread

/-- An object is read once the values of its fields are. -/
theorem reads_value_object {depth : Nat} {entries others : List (String × Json)}
    (hascending : Entries.Ascending others)
    (h : List.Forall₂ (ReadsEntry p depth) entries others) :
    Reads (value p (depth + 1)) (.object entries) (.object others) := by
  intro rest _
  obtain ⟨text, htext, hfields⟩ := exists_write_object (readsFields_entries hascending h) rest
  have hbrace : skipBlank ('{' :: text) = '{' :: text := rfl
  rw [htext, value, hbrace]
  simp only [hfields, bind, Except.bind]

/-! ## All documents -/

mutual

/-- **Ordered documents are read from the front of a text**, up to their
depth, with their numbers as the texts of these are read. -/
theorem reads_value (document : Json) (hordered : document.Ordered) {depth : Nat}
    (hdepth : document.depth ≤ depth) {other : Json} (h : document.ReadAs p other) :
    Reads (value p depth) document other := by
  match document with
  | .null =>
    cases h
    exact reads_value_null depth
  | .bool b =>
    cases h
    exact reads_value_bool depth b
  | .string s =>
    cases h
    exact reads_value_string depth s
  | .number n =>
    obtain ⟨m, rfl, hnumber⟩ := h
    exact reads_value_number depth hnumber
  | .array documents =>
    rw [Json.depth] at hdepth
    obtain ⟨below, rfl⟩ : ∃ n, depth = n + 1 := ⟨depth - 1, by omega⟩
    obtain ⟨others, rfl, hothers⟩ := h
    exact reads_value_array (reads_items documents hordered (by omega) hothers)
  | .object entries =>
    rw [Json.depth] at hdepth
    obtain ⟨below, rfl⟩ : ∃ n, depth = n + 1 := ⟨depth - 1, by omega⟩
    obtain ⟨others, rfl, hothers⟩ := h
    exact reads_value_object (hothers.ascending hordered.1)
      (reads_values entries hordered.2 (by omega) hothers)

/-- Items are read. -/
theorem reads_items (documents : List Json) (hordered : OrderedItems documents) {depth : Nat}
    (hdepth : depthItems documents ≤ depth) {others : List Json}
    (h : ItemsReadAs p documents others) :
    List.Forall₂ (Reads (value p depth)) documents others := by
  match documents with
  | [] =>
    cases h
    exact .nil
  | first :: rest =>
    rw [depthItems] at hdepth
    obtain ⟨other, tail, rfl, hfirst, hrest⟩ := h
    exact .cons (reads_value first hordered.1 (by omega) hfirst)
      (reads_items rest hordered.2 (by omega) hrest)

/-- The values of fields are read. -/
theorem reads_values (entries : List (String × Json)) (hordered : OrderedValues entries)
    {depth : Nat} (hdepth : depthValues entries ≤ depth) {others : List (String × Json)}
    (h : ValuesReadAs p entries others) : List.Forall₂ (ReadsEntry p depth) entries others := by
  match entries with
  | [] =>
    cases h
    exact .nil
  | (key, document) :: rest =>
    rw [depthValues] at hdepth
    obtain ⟨other, tail, rfl, hfirst, hrest⟩ := h
    exact .cons ⟨rfl, reads_value document hordered.1 (by omega) hfirst⟩
      (reads_values rest hordered.2 (by omega) hrest)

end

end Reader

/-- **A document is read from its text**, if it is ordered and not nested too
deep, and if its numbers are read back. -/
theorem read_render {p : Precision} {document : Json} (hordered : document.Ordered)
    (hdepth : document.depth ≤ nestingLimit) (hlegible : document.Legible p) :
    read (String.ofList document.render) p = .ok document := by
  have hend : Reader.EndsNumber [] := by simp [Reader.EndsNumber]
  have hread := Reader.reads_value document hordered hdepth hlegible.readAs [] hend
  simp only [read, readWith, String.toList_ofList, render, hread, bind, Except.bind]
  rfl

end Json

end TraceLog
