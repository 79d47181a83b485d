import TraceLog.Proofs.Json.RoundTrip
import TraceLog.Proofs.Schema.Fits
import TraceLog.Proofs.Schema.ReadAs

/-!
# TraceLog.Proofs.Schema.RoundTrip

Values of a schema read back from their texts.

The reader of each scalar takes its value from the front of a text; a record is
taken field by field, every field filling the place of its name and leaving the
others as they are.

* `Schema.reads` — values that fit are read from the front of a text, with their
  numbers as the texts of these are read;
* `Form.read_render` — and values of a type from a whole one.
-/

namespace TraceLog

open Json (Fault Reader)

namespace Json.Reader

variable {α σ : Type} {p : Precision}

/-! ## Scalars -/

theorem reads_bool (b : Bool) : Reads (Reader.bool p) (.bool b) b := fun _ _ => by
  cases b <;> rfl

/-- A reader of numbers is in front of one. -/
theorem reads_number {reader : Reader α} {n m : Number} (hread : n.ReadAs p m) {a : α}
    (h : ∀ c cs rest, isBlank c = false → startsNumber c = true →
      number p (c :: cs) = .ok (m, rest) → reader (c :: cs) = .ok (a, rest)) :
    Reads reader (.number n) a := by
  intro rest hrest
  have hnumber := hread.append hrest
  obtain ⟨c, cs, htext, hstarts⟩ := exists_startsNumber n
  rw [htext, List.cons_append] at hnumber
  rw [write, htext, List.cons_append]
  exact h c _ rest (isBlank_of_startsNumber hstarts) hstarts hnumber

/-- The integer of a value lies in the range of its type, and stands for the
value. -/
theorem exists_toNumber (w : Word) (v : w.Val) :
    ∃ n h, w.toNumber v = .integer n h ∧ w.ofInt? n = some v := by
  have hword : ∀ v : UInt64, (0 : Int) ≤ v.toNat ∧ (v.toNat : Int) < 18446744073709551616 :=
    fun v => ⟨Int.natCast_nonneg _, by have := v.toNat_lt; omega⟩
  cases w with
  | size =>
      refine ⟨_, _, rfl, (if_pos (hword v)).trans (congrArg some ?_)⟩
      exact UInt64.ofNat_toNat
  | wide =>
      refine ⟨_, _, rfl, (if_pos (hword v)).trans (congrArg some ?_)⟩
      exact UInt64.ofNat_toNat
  | half =>
      have hhalf : (0 : Int) ≤ UInt32.toNat v ∧ (UInt32.toNat v : Int) < 4294967296 :=
        ⟨Int.natCast_nonneg _, by have := UInt32.toNat_lt v; omega⟩
      refine ⟨_, _, rfl, (if_pos hhalf).trans (congrArg some ?_)⟩
      exact UInt32.ofNat_toNat
  | signed =>
      refine ⟨_, _, rfl, (if_pos ⟨Int64.le_toInt v, Int64.toInt_lt v⟩).trans (congrArg some ?_)⟩
      exact Int64.ofInt_toInt v

theorem reads_integer (w : Word) (v : w.Val) :
    Reads (integer p w) (.number (w.toNumber v)) v := by
  obtain ⟨n, h, htoNumber, hofInt⟩ := exists_toNumber w v
  rw [htoNumber]
  refine reads_number (Number.legible_integer p h) fun c cs rest hblank hstarts hnumber => ?_
  simp only [integer, skipBlank_cons hblank, if_pos hstarts, hnumber, hofInt, bind, Except.bind]

theorem reads_float {x y : Binary64} (h : x.isFinite = true) (hread : x.ReadAs p y) :
    Reads (Reader.float p) (.ofFloat x) y := by
  obtain ⟨hy, hnumber⟩ := hread h
  rw [ofFloat, dif_pos h]
  refine reads_number hnumber fun c cs rest hblank hstarts hnumber => ?_
  simp only [Reader.float, skipBlank_cons hblank, if_pos hstarts, hnumber, bind, Except.bind]

theorem reads_text (expected t : String) : Reads (text p expected) (.string t) t := by
  intro rest _
  have hquote : (Json.string t).write rest = '"' :: (escape t.toList ++ '"' :: rest) :=
    quote_append t rest
  rw [hquote]
  exact string_quote t rest

theorem reads_choice (names : List String) (depth : Nat) (c : { s : String // s ∈ names }) :
    Reads (choice p names depth) (.string c.val) c := by
  intro rest _
  have hquote : (Json.string c.val).write rest = '"' :: (escape c.val.toList ++ '"' :: rest) :=
    quote_append c.val rest
  have hblank : skipBlank ('"' :: (escape c.val.toList ++ '"' :: rest)) =
    '"' :: (escape c.val.toList ++ '"' :: rest) := rfl
  rw [hquote, choice, hblank]
  simp only [oneOf, string_quote, bind, Except.bind, dif_pos c.property]

theorem reads_none (reader : Reader α) : Reads (Reader.optional reader) .null none :=
  fun _ _ => rfl

theorem reads_some {reader : Reader α} {document : Json} {a : α} (hnull : document ≠ .null)
    (h : Reads reader document a) : Reads (Reader.optional reader) document (some a) := by
  intro rest hrest
  have hread := h rest hrest
  obtain ⟨c, cs, htext, hblank, -, hletter⟩ := exists_head document rest
  rw [htext] at hread ⊢
  rw [Reader.optional, skipBlank_cons hblank]
  split
  · next heq => exact absurd (List.cons.inj heq).1 (hletter hnull)
  · simp only [hread, bind, Except.bind]

/-! ## Lists and free documents -/

/-- A list is read once its values are. -/
theorem reads_list {s : Schema} {depth : Nat} {vs ws : List s.Val}
    (h : List.Forall₂ (fun v w => Reads (s.read p depth) (s.toJson v) w) vs ws) :
    Reads ((Schema.list s).read p (depth + 1)) (array (vs.map s.toJson)) ws := by
  intro rest _
  obtain ⟨text, htext, hitems⟩ := exists_write_array (List.forall₂_map_left_iff.2 h) rest
  have hlist : (Schema.list s).read p (depth + 1) ('[' :: text) = items (s.read p depth) text :=
    rfl
  rw [htext]
  exact hlist.trans hitems

/-- Free documents are read into the order that they had. -/
theorem reads_documents {depth : Nat} {entries others : Entries Json}
    (h : (object entries).Fits depth) (hread : (object entries).ReadAs p (object others)) :
    Reads (Schema.documents.read p depth) (object entries) others := by
  intro rest _
  obtain ⟨⟨hascending, hordered⟩, hdepth⟩ := h
  rw [Json.depth] at hdepth
  obtain ⟨below, rfl⟩ : ∃ below, depth = below + 1 := ⟨depth - 1, by omega⟩
  obtain ⟨_, ⟨⟩, hothers⟩ := hread
  have hvalues := reads_values entries hordered (Nat.le_of_succ_le_succ hdepth) hothers
  obtain ⟨text, htext, hfields⟩ :=
    exists_write_object (readsFields_entries (hothers.ascending hascending) hvalues) rest
  have hdocuments : Schema.documents.read p (below + 1) ('{' :: text) =
      Reader.fields (anyField (value p below)) [] text := rfl
  rw [htext]
  exact hdocuments.trans hfields

/-! ## Records -/

/-- An object is read as a record once its fields are. -/
theorem reads_record {name : String} {elements : Nat → Reader α}
    {value : Nat → String → σ → Reader σ} {start read : σ} {complete : σ → Except Fault α}
    {depth : Nat} {entries : List (String × Json)} {a : α}
    (h : ReadsFields (fieldsOf.keyed (value depth)) entries start read)
    (hcomplete : complete read = .ok a) :
    Reads (record p name elements (fun depth => fieldsOf (value depth) start complete) (depth + 1))
      (.object entries) a := by
  intro rest _
  obtain ⟨text, htext, hfields⟩ := exists_write_object h rest
  have hrecord : record p name elements (fun depth => fieldsOf (value depth) start complete)
      (depth + 1) ('{' :: text) = fieldsOf (value depth) start complete text := rfl
  rw [htext, hrecord]
  simp only [fieldsOf, hfields, hcomplete, bind, Except.bind]

end Json.Reader

open Json.Reader

namespace Fields

variable {p : Precision} {name : String} {s : Schema} {rest : Fields} {depth : Nat}

/-- All fields have been read. -/
def given : (fields : Fields) → fields.Val → fields.Partial
  | .nil, _ => ()
  | .cons _ _ rest, (v, vs) => (some v, rest.given vs)

/-- A record is complete once all its fields have been read, whatever stands in
for the others. -/
theorem complete_given (fields : Fields) (fallback : Option fields.Val) (v : fields.Val) :
    fields.complete fallback (fields.given v) = .ok v := by
  match fields, v with
  | .nil, () => rfl
  | .cons name s rest, (v, vs) =>
    simp only [complete, given, rest.complete_given _ vs, bind, Except.bind]

theorem names_toFields (fields : Fields) (v : fields.Val) :
    (fields.toFields v).map (·.1) = fields.names := by
  match fields, v with
  | .nil, () => rfl
  | .cons name s rest, (v, vs) =>
    rw [toFields, names, List.map_cons, rest.names_toFields vs]

/-- The first field fills its place. -/
theorem readsField_first {document : Json} {v : s.Val} (h : Reads (s.read p depth) document v)
    (more : rest.Partial) :
    ReadsField (fieldsOf.keyed ((cons name s rest).readValue p depth)) (name, document)
      (Option.none, more) (some v, more) := by
  intro behind hbehind
  have hname := string_quote name (':' :: document.write behind)
  have hcolon : skipBlank (':' :: document.write behind) = ':' :: document.write behind := rfl
  rw [quote_append]
  simp only [fieldsOf.keyed, Reader.name, hname, readValue, if_pos, colon, hcolon,
    h behind hbehind, bind, Except.bind]

/-- A field with another name is one of the others. -/
theorem readsField_others {entry : String × Json} {read more : rest.Partial}
    (h : ReadsField (fieldsOf.keyed (rest.readValue p depth)) entry read more)
    (hname : entry.1 ≠ name) (v : Option s.Val) :
    ReadsField (fieldsOf.keyed ((cons name s rest).readValue p depth)) entry (v, read)
      (v, more) := by
  intro behind hbehind
  have hread := h behind hbehind
  have hquote := string_quote entry.1 (':' :: entry.2.write behind)
  rw [quote_append] at hread ⊢
  simp only [fieldsOf.keyed, Reader.name, hquote, bind, Except.bind] at hread
  simp only [fieldsOf.keyed, Reader.name, hquote, readValue, if_neg hname, hread, bind, Except.bind]

/-- The others are read beside the first field. -/
theorem readsFields_others {entries : List (String × Json)} {read more : rest.Partial}
    (h : ReadsFields (fieldsOf.keyed (rest.readValue p depth)) entries read more)
    (hnames : ∀ entry ∈ entries, entry.1 ≠ name) (v : Option s.Val) :
    ReadsFields (fieldsOf.keyed ((cons name s rest).readValue p depth)) entries (v, read)
      (v, more) := by
  induction h with
  | nil read => exact .nil (v, read)
  | cons hentry _ ih =>
      rw [List.forall_mem_cons] at hnames
      exact .cons (readsField_others hentry hnames.1 v) (ih hnames.2)

end Fields

/-! ## Values -/

section

variable {p : Precision}

mutual

/-- **Values that fit are read from the front of a text**, with their numbers as
the texts of these are read. -/
theorem Schema.reads (s : Schema) (hs : s.unambiguous = true) {depth : Nat} {v w : s.Val}
    (hv : s.Fits depth v) (h : s.ReadAs p v w) : Reads (s.read p depth) (s.toJson v) w := by
  match s, depth, v with
  | .bool, _, v =>
    cases h
    exact reads_bool v
  | .word word, _, v =>
    cases h
    exact reads_integer word v
  | .text, _, v =>
    cases h
    exact reads_text _ v
  | .path, _, v =>
    cases h
    exact reads_text _ v
  | .choice names, depth, v =>
    cases h
    exact reads_choice names depth v
  | .float, _, _ => exact reads_float hv h
  | .optional s, depth, none =>
    cases h
    exact reads_none _
  | .optional s, depth, some v =>
    obtain ⟨h⟩ := h
    rw [Schema.unambiguous, Bool.and_eq_true, Bool.not_eq_true'] at hs
    exact reads_some (Schema.toJson_ne_null hs.1 hv) (s.reads hs.2 hv h)
  | .list s, depth + 1, vs =>
    have hpairs := (List.forall₂_and_left _ _).2 ⟨hv, h⟩
    exact reads_list (hpairs.imp fun v w hpair => s.reads hs hpair.1 hpair.2)
  | .documents, depth, entries => exact reads_documents hv h
  | .record name fields, depth + 1, v =>
    exact reads_record (fields.readsFields hs hv h) (fields.complete_given none w)

/-- The fields of a record are read into their places. -/
theorem Fields.readsFields (fields : Fields) (hfields : fields.unambiguous = true) {depth : Nat}
    {v w : fields.Val} (hv : fields.Fits depth v) (h : fields.ReadAs p v w) :
    ReadsFields (fieldsOf.keyed (fields.readValue p depth)) (fields.toFields v) fields.none
      (fields.given w) := by
  match fields, v, w with
  | .nil, (), () => exact .nil ()
  | .cons name s rest, (v, vs), (w, ws) =>
    simp only [Fields.unambiguous, Bool.and_eq_true, Bool.not_eq_true', List.contains_eq_mem,
      decide_eq_false_iff_not] at hfields
    obtain ⟨⟨hname, hs⟩, hrest⟩ := hfields
    have hothers : ∀ entry ∈ rest.toFields vs, entry.1 ≠ name := by
      rintro entry hentry rfl
      rw [← rest.names_toFields vs] at hname
      exact hname (List.mem_map_of_mem hentry)
    exact .cons (Fields.readsField_first (s.reads hs hv.1 h.1) rest.none)
      (Fields.readsFields_others (rest.readsFields hrest hv.2 h.2) hothers (some w))

end

/-- A value is read also where others stand in for what a text leaves out. -/
theorem Schema.readsOr (s : Schema) (hs : s.unambiguous = true) (fallback : Option s.Val)
    {depth : Nat} {v w : s.Val} (hv : s.Fits depth v) (h : s.ReadAs p v w) :
    Reads (s.readOr p fallback depth) (s.toJson v) w := by
  match s, depth, v with
  | .record name fields, depth + 1, v =>
    exact reads_record (fields.readsFields hs hv h) (fields.complete_given fallback w)
  | .bool, _, _ | .word _, _, _ | .float, _, _ | .text, _, _ | .path, _, _ | .choice _, _, _
  | .optional _, _, _ | .list _, _, _ | .documents, _, _ => exact Schema.reads _ hs hv h

/-- **A value of a type is read from its text**, with its numbers as the texts of
these are read. -/
theorem Form.read_render {α : Type} {f : Form α} (hf : f.schema.unambiguous = true) {a b : α}
    (ha : f.Fits Json.nestingLimit a) (h : f.ReadAs p a b) :
    f.read (String.ofList (f.render a)) p = .ok b := by
  have hread := f.schema.readsOr hf (f.fallback.map f.toVal) ha h [] (by simp [EndsNumber])
  simp only [Form.read, Json.readWith, String.toList_ofList, Form.render, Form.toJson, Json.render,
    hread, bind, Except.bind]
  exact congrArg Except.ok (f.ofVal_toVal b)

end

/-- Values of a type are told apart by their texts, however deep they are
nested: a reader that takes the nearest numbers tells them apart. -/
theorem Form.render_injective {α : Type} {f : Form α} (hf : f.schema.unambiguous = true)
    {depth : Nat} {a b : α} (ha : f.Fits depth a) (hb : f.Fits depth b)
    (h : f.render a = f.render b) : a = b := by
  have hreadA := f.schema.reads hf ha (f.schema.readAs_nearest _) [] (by simp [EndsNumber])
  have hreadB := f.schema.reads hf hb (f.schema.readAs_nearest _) [] (by simp [EndsNumber])
  have htext : (f.schema.toJson (f.toVal a)).write [] = (f.schema.toJson (f.toVal b)).write [] := h
  rw [htext, hreadB, Except.ok.injEq, Prod.mk.injEq] at hreadA
  rw [← f.ofVal_toVal a, ← f.ofVal_toVal b, hreadA.1]

end TraceLog
