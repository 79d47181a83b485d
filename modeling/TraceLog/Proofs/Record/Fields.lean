import Mathlib.Data.List.Sort
import TraceLog.Proofs.Payload.Idempotence
import TraceLog.Proofs.Record.Merge
import TraceLog.Proofs.Record.OneLine

/-!
# TraceLog.Proofs.Record.Fields

The fields of a request, and its line.

A map in ascending order is known by what it holds under each key, and what
`Entries.ofPairs` holds under a key is the value of the last pair with it.  So
the data of a request, and its line, depend on the added fields only through
those of each name, in their order.

What a later field replaces is in neither, but it is normalized all the same.
That is the one way in which it can have a say: it may ask for a list that
cannot exist.

* `Entries.find?_ofPairs` — the last pair with a key wins;
* `Entries.Ascending.ext` — a map is known by its values;
* `Request.Holds` — what the data of a request are;
* `Request.line?_merges_fields` — the law of the data and of the line;
* `Request.line?_eq_none_of_replaced` — a replaced field that ends it all.
-/

namespace TraceLog

/-! ## Maps made from pairs -/

namespace Entries

variable {α : Type}

/-- The value of the last pair with a key. -/
def last? (key : String) (pairs : List (String × α)) : Option α :=
  (pairs.filter (·.1 == key)).getLast?.map (·.2)

theorem last?_append (key : String) (first second : List (String × α)) :
    last? key (first ++ second) = (last? key second).or (last? key first) := by
  rw [last?, List.filter_append, List.getLast?_append, Option.map_or]
  rfl

theorem last?_cons (key : String) (pair : String × α) (pairs : List (String × α)) :
    last? key (pair :: pairs) =
      (last? key pairs).or (if key = pair.1 then some pair.2 else none) := by
  rw [← List.singleton_append, last?_append]
  by_cases h : pair.1 = key
  · simp [last?, h]
  · simp [last?, h, Ne.symm h]

theorem last?_eq_none_iff {key : String} {pairs : List (String × α)} :
    last? key pairs = none ↔ key ∉ pairs.map (·.1) := by
  induction pairs with
  | nil => simp [last?]
  | cons pair pairs ih => simp [last?_cons, ih, and_comm]

theorem mem_of_last?_eq_some {key : String} {value : α} {pairs : List (String × α)}
    (h : last? key pairs = some value) : (key, value) ∈ pairs := by
  obtain ⟨⟨k, v⟩, hlast, rfl⟩ := Option.map_eq_some_iff.1 h
  obtain ⟨hmem, hkey⟩ := List.mem_filter.1 (List.mem_of_getLast? hlast)
  exact beq_iff_eq.1 hkey ▸ hmem

/-- If no key comes twice, the last pair with a key is the first one. -/
theorem last?_eq_find? {key : String} {pairs : List (String × α)}
    (h : (pairs.map (·.1)).Nodup) : last? key pairs = find? key pairs := by
  induction pairs with
  | nil => rfl
  | cons pair pairs ih =>
      obtain ⟨hnew, hrest⟩ := List.nodup_cons.1 h
      rw [last?_cons, find?]
      split
      · next hkey => rw [hkey, last?_eq_none_iff.2 hnew, Option.none_or]
      · rw [ih hrest, Option.or_none]

theorem find?_insertAll (key : String) (entries : Entries α) (pairs : List (String × α)) :
    (entries.insertAll pairs).find? key = (last? key pairs).or (entries.find? key) := by
  induction pairs generalizing entries with
  | nil => rfl
  | cons pair pairs ih =>
      rw [insertAll_cons, ih, find?_insert, last?_cons, Option.or_assoc]
      split <;> rfl

/-- **The last pair with a key wins.** -/
theorem find?_ofPairs (key : String) (pairs : List (String × α)) :
    (ofPairs pairs).find? key = last? key pairs := by
  rw [ofPairs, find?_insertAll, find?, Option.or_none]

/-- There is a value under every key, and under no other text. -/
theorem find?_eq_none_iff {key : String} {entries : Entries α} :
    entries.find? key = none ↔ key ∉ entries.map (·.1) := by
  induction entries with
  | nil => simp [find?]
  | cons entry entries ih =>
      rw [find?]
      split <;> simp [*]

theorem find?_map {β : Type} (f : α → β) (key : String) (entries : Entries α) :
    find? key (entries.map fun entry => (entry.1, f entry.2)) = (entries.find? key).map f := by
  induction entries with
  | nil => rfl
  | cons entry entries ih =>
      rw [List.map_cons, find?, find?, ih]
      split <;> rfl

theorem Ascending.find?_eq_some_iff {entries : Entries α} (h : entries.Ascending) {key : String}
    {value : α} : entries.find? key = some value ↔ (key, value) ∈ entries := by
  induction entries with
  | nil => simp [find?]
  | cons entry entries ih =>
      obtain ⟨hlt, hrest⟩ := List.pairwise_cons.1 h
      rw [find?, List.mem_cons]
      split
      · next hkey =>
          -- All other keys are above this one.
          have hnot : (key, value) ∉ entries := by
            intro hmem
            have habove : entry.1 < key := hlt (key, value) hmem
            exact String.lt_irrefl key (hkey ▸ habove)
          rw [or_iff_left hnot, Prod.ext_iff, and_iff_right hkey, Option.some.injEq, eq_comm]
      · next hkey => simp [ih hrest, Prod.ext_iff, hkey]

/-- **A map is known by its values.** -/
theorem Ascending.ext {first second : Entries α} (hfirst : first.Ascending)
    (hsecond : second.Ascending) (h : ∀ key, first.find? key = second.find? key) :
    first = second := by
  have hirrefl : Std.Irrefl fun a b : String × α => a.1 < b.1 :=
    ⟨fun entry => String.lt_irrefl entry.1⟩
  have hantisymm : Std.Antisymm fun a b : String × α => a.1 < b.1 :=
    ⟨fun _ _ hab hba => absurd (String.lt_trans hab hba) (String.lt_irrefl _)⟩
  refine List.Pairwise.eq_of_mem_iff hfirst hsecond fun entry => ?_
  rw [← hfirst.find?_eq_some_iff, ← hsecond.find?_eq_some_iff, h]

end Entries

/-! ## Fields that survive -/

namespace Request

open Entries

variable {r r' : Request}

/-- The names of the fixed fields. -/
def fixedNames : List String :=
  [ "request_type", "request_id", "token_ids_shape", "slot_mapping_shape", "token_mask_shape",
    "token_ids", "slot_mapping", "token_mask", "layer_granularity", "dp_id" ]

/-- The field that survives under a name: the last one that was added, or else
the fixed one. -/
def field? (r : Request) (key : String) : Option Payload :=
  (last? key r.extra).or (find? key r.fixed)

theorem map_fst_fixed (r : Request) : r.fixed.map (·.1) = fixedNames := rfl

theorem last?_fields (r : Request) (key : String) : last? key r.fields = r.field? key := by
  have hnames : (r.fixed.map (·.1)).Nodup := by
    rw [map_fst_fixed]
    decide
  rw [fields, last?_append, last?_eq_find? hnames, field?]

theorem find?_ofPairs_fields (r : Request) (key : String) :
    (ofPairs r.fields).find? key = r.field? key := by
  rw [find?_ofPairs, last?_fields]

theorem field?_eq_none_iff {key : String} :
    r.field? key = none ↔ key ∉ fixedNames ∧ key ∉ r.extra.map (·.1) := by
  rw [field?, Option.or_eq_none_iff, last?_eq_none_iff, find?_eq_none_iff, map_fst_fixed, and_comm]

/-- A name that was not added has its fixed field. -/
theorem field?_of_notMem {key : String} (h : key ∉ r.extra.map (·.1)) :
    r.field? key = find? key r.fixed := by
  rw [field?, last?_eq_none_iff.2 h, Option.none_or]

/-- A field that survives is one of the fields. -/
theorem mem_fields_of_field? {key : String} {value : Payload} (h : r.field? key = some value) :
    (key, value) ∈ r.fields := by
  rw [← last?_fields] at h
  exact mem_of_last?_eq_some h

/-- Requests in which the same fields survive have the same data. -/
theorem data_congr (h : ∀ key, r.field? key = r'.field? key) : r.data = r'.data := by
  have hentries : ofPairs r.fields = ofPairs r'.fields := by
    refine (ascending_ofPairs _).ext (ascending_ofPairs _) fun key => ?_
    rw [find?_ofPairs_fields, find?_ofPairs_fields, h]
  rw [data_eq_normalize_merged, data_eq_normalize_merged, merged, merged, hentries]

/-- What survives can be encoded exactly if each field that survives can. -/
theorem encodable_merged_iff :
    r.merged.Encodable ↔ ∀ key value, r.field? key = some value → value.Encodable := by
  have hentry : ∀ key value, r.field? key = some value ↔ (key, value) ∈ ofPairs r.fields := by
    intro key value
    rw [← find?_ofPairs_fields, (ascending_ofPairs _).find?_eq_some_iff]
  rw [merged, Payload.Encodable, Payload.encodableValues_iff]
  simp only [hentry, Prod.forall]

/-! ## Data -/

/-- What the data of a request are.  There is an entry for each fixed name and
for each that was added, and no other: the normalized form of the field that
survives under the name.  A shape that was not replaced is the one that its
array reports, whatever becomes of the array. -/
structure Holds (r : Request) (entries : Entries Payload) : Prop where
  ascending : entries.Ascending
  keys : ∀ key, key ∈ entries.map (·.1) ↔ key ∈ fixedNames ∨ key ∈ r.extra.map (·.1)
  value : ∀ key, entries.find? key = (r.field? key).bind Payload.normalize?
  tokensShape : "token_ids_shape" ∉ r.extra.map (·.1) →
    entries.find? "token_ids_shape" = some (.ofShape r.tokens.shape)
  slotsShape : "slot_mapping_shape" ∉ r.extra.map (·.1) →
    entries.find? "slot_mapping_shape" = some (.ofShape r.slots.shape)
  maskShape : "token_mask_shape" ∉ r.extra.map (·.1) →
    entries.find? "token_mask_shape" = some (.ofOption (Payload.ofShape ·.shape) r.mask)
  noMask : r.mask = none → "token_mask" ∉ r.extra.map (·.1) →
    entries.find? "token_mask" = some .null

theorem buildable_iff : r.buildable = true ↔ ∀ field ∈ r.fields, field.2.buildable = true := by
  rw [buildable, List.all_eq_true]

/-- There are no data exactly if some field, replaced or not, has no normalized
form. -/
theorem data?_eq_none_iff : r.data? = none ↔ ∃ field ∈ r.fields, field.2.normalize? = none := by
  simp [data?, buildable_iff, Payload.normalize?_eq_none_iff]

theorem data?_of_buildable (h : r.buildable = true) : r.data? = some r.data := by
  rw [data?, if_pos h]

theorem buildable_of_data? (h : r.data? ≠ none) : r.buildable = true := by
  by_contra hnot
  exact h (by rw [data?, if_neg hnot])

/-- A shape as a list is in its normalized form. -/
theorem normalize?_ofShape (shape : Shape) :
    (Payload.ofShape shape).normalize? = some (.ofShape shape) := by
  refine Payload.normalize?_of_isNormalized ?_
  rw [Payload.ofShape, Payload.ofList, Payload.isNormalized]
  induction shape with
  | nil => rfl
  | cons dim dims ih =>
      rw [List.map_cons, Payload.allNormalized, ih, Payload.ofUInt64]
      split <;> rfl

/-- The data of a request hold its fields. -/
theorem holds_of_buildable (h : r.buildable = true) :
    ∃ entries, r.data = .map entries ∧ r.Holds entries := by
  have hvalue : ∀ key, find? key (ofPairs (r.fields.map fun field => (field.1, field.2.normalize))) =
      (r.field? key).bind Payload.normalize? := by
    intro key
    rw [ofPairs_map, find?_map, find?_ofPairs_fields]
    cases hfield : r.field? key with
    | none => rfl
    | some value =>
        have hbuild := buildable_iff.1 h _ (mem_fields_of_field? hfield)
        rw [Option.map_some, Option.bind_some, Payload.normalize?_of_buildable hbuild]
  have hfixed : ∀ key, key ∉ r.extra.map (·.1) →
      find? key (ofPairs (r.fields.map fun field => (field.1, field.2.normalize))) =
        (find? key r.fixed).bind Payload.normalize? := by
    intro key hkey
    rw [hvalue, field?_of_notMem hkey]
  have hnull : Payload.null.normalize? = some .null := Payload.normalize?_of_isNormalized rfl
  refine ⟨_, rfl, ascending_ofPairs _, ?keys, hvalue, ?tokens, ?slots, ?mask, ?noMask⟩
  case keys =>
    intro key
    rw [← not_iff_not, not_or, ← field?_eq_none_iff, ← find?_ofPairs_fields, find?_eq_none_iff,
      ofPairs_map, List.map_map]
    rfl
  case tokens => exact fun hkey => (hfixed _ hkey).trans (normalize?_ofShape _)
  case slots => exact fun hkey => (hfixed _ hkey).trans (normalize?_ofShape _)
  case mask =>
    intro hkey
    refine (hfixed _ hkey).trans ?_
    cases hmask : r.mask with
    | none => simp [fixed, find?, hmask, Payload.ofOption, hnull]
    | some mask => simp [fixed, find?, hmask, Payload.ofOption, normalize?_ofShape]
  case noMask =>
    intro hmask hkey
    refine (hfixed _ hkey).trans ?_
    simp [fixed, find?, hmask, Payload.ofOption, hnull]

/-! ## Lines -/

/-- The line of the record of a request, or why it has none; nothing if a list
would have to be built that cannot exist, or if the time has no text. -/
def line? (r : Request) (time : Timestamp) : Option (Except Failure String) :=
  r.data?.bind fun data => (Record.mk time .request (.payload data)).toLine?

variable {time : Timestamp}

theorem line?_of_not_buildable (h : ¬r.buildable = true) : r.line? time = none := by
  rw [line?, data?, if_neg h, Option.bind_none]

theorem line?_of_buildable (h : r.buildable = true) :
    r.line? time = (Record.request time r).toLine? := by
  rw [line?, data?_of_buildable h, Option.bind_some]
  rfl

/-- Requests in which the same fields survive have the same line, if they agree
in whether all their fields can be normalized. -/
theorem line?_congr (hbuild : r.buildable = true ↔ r'.buildable = true)
    (h : ∀ key, r.field? key = r'.field? key) : r.line? time = r'.line? time := by
  by_cases hr : r.buildable = true
  · rw [line?_of_buildable hr, line?_of_buildable (hbuild.1 hr), Record.request, Record.request,
      data_congr h]
  · rw [line?_of_not_buildable hr, line?_of_not_buildable (mt hbuild.2 hr)]

/-- The order of the added fields matters within each name only. -/
theorem line?_of_filter_eq (r : Request) (time : Timestamp) {extra : List (String × Payload)}
    (h : ∀ key, extra.filter (·.1 == key) = r.extra.filter (·.1 == key)) :
    { r with extra }.line? time = r.line? time := by
  have hmem : ∀ field, field ∈ extra ↔ field ∈ r.extra := by
    intro field
    have hfield := congrArg (field ∈ ·) (h field.1)
    simpa using hfield
  refine line?_congr ?_ fun key => ?_
  · simp only [buildable_iff, fields, List.mem_append, hmem]
    rfl
  · rw [field?, field?, last?, last?, h]
    rfl

/-- A field that was added and replaced by a later one has a say only if it
cannot be normalized. -/
theorem line?_of_replaced {before after : List (String × Payload)} {key : String} {value : Payload}
    (h : r.extra = before ++ (key, value) :: after) (hlater : key ∈ after.map (·.1)) :
    r.line? time = value.normalize?.bind fun _ => { r with extra := before ++ after }.line? time := by
  have hbuildable : r.buildable = true ↔
      value.buildable = true ∧ { r with extra := before ++ after }.buildable = true := by
    simp only [buildable_iff, fields, h, List.forall_mem_append, List.forall_mem_cons]
    tauto
  have hfield : ∀ k, r.field? k = { r with extra := before ++ after }.field? k := by
    intro k
    have hlast : (last? k after).or (if k = key then some value else none) = last? k after := by
      by_cases hk : k = key
      · have hsome : last? k after ≠ none := by
          rw [Ne, last?_eq_none_iff, hk]
          exact not_not_intro hlater
        obtain ⟨found, hfound⟩ := Option.ne_none_iff_exists'.1 hsome
        rw [hfound, Option.some_or]
      · rw [if_neg hk, Option.or_none]
    rw [field?, field?, h, last?_append, last?_append, last?_cons, hlast]
    rfl
  by_cases hvalue : value.buildable = true
  · rw [Payload.normalize?_of_buildable hvalue, Option.bind_some]
    exact line?_congr (hbuildable.trans (and_iff_right hvalue)) hfield
  · rw [line?_of_not_buildable (mt (fun hr => (hbuildable.1 hr).1) hvalue), Payload.normalize?,
      if_neg hvalue, Option.bind_none]

/-- If all fields can be normalized, there is a line exactly if those that
survive can be encoded. -/
theorem exists_line_iff (h : r.buildable = true) :
    (∃ line, r.line? time = some (.ok line)) ↔
      time.Writable ∧ ∀ key value, r.field? key = some value → value.Encodable := by
  rw [line?_of_buildable h, ← encodable_merged_iff, ← hasDocument_data_iff, Payload.HasDocument]
  by_cases htime : time.Writable
  · have hline : (Record.request time r).toLine? = some (Record.request time r).toLine :=
      if_pos htime
    rw [hline, and_iff_right htime, Record.request]
    rcases Record.toLine_payload time .request r.data with
      ⟨line, hline, hdocument⟩ | ⟨fault, hline, hfault⟩
    · simp [hline, hdocument]
    · simp [hline, hfault]
  · have hline : (Record.request time r).toLine? = none := if_neg htime
    simp [hline, htime]

/-- **The fields of a request merge under their names.**  A request has no data
exactly if some field has no normalized form; otherwise its data hold, under
each name, what survives under it.  In its line, added fields of different
names may change places; a field that was added and replaced later has a say
only if it has no normalized form; what survives decides, between requests that
have data; and of these, the ones with a line are those of which all that
survives can be encoded. -/
theorem line?_merges_fields (r : Request) (time : Timestamp) :
    (r.data? = none ↔ ∃ field ∈ r.fields, field.2.normalize? = none) ∧
    (∀ data, r.data? = some data → ∃ entries, data = .map entries ∧ r.Holds entries) ∧
    (∀ extra, (∀ key, extra.filter (·.1 == key) = r.extra.filter (·.1 == key)) →
      { r with extra }.line? time = r.line? time) ∧
    (∀ before key value after, r.extra = before ++ (key, value) :: after →
      key ∈ after.map (·.1) →
      r.line? time =
        value.normalize?.bind fun _ => { r with extra := before ++ after }.line? time) ∧
    (∀ r' : Request, (∀ key, r.field? key = r'.field? key) → r.data? ≠ none → r'.data? ≠ none →
      r.line? time = r'.line? time) ∧
    (r.data? ≠ none → ((∃ line, r.line? time = some (.ok line)) ↔
      time.Writable ∧ ∀ key value, r.field? key = some value → value.Encodable)) := by
  refine ⟨data?_eq_none_iff, ?holds, fun _ => line?_of_filter_eq r time,
    fun _ _ _ _ => line?_of_replaced, ?survivors, fun h => exists_line_iff (buildable_of_data? h)⟩
  case holds =>
    intro data hdata
    have hbuild := buildable_of_data? (r := r) (by rw [hdata]; exact Option.some_ne_none data)
    rw [data?_of_buildable hbuild, Option.some.injEq] at hdata
    exact hdata ▸ holds_of_buildable hbuild
  case survivors =>
    intro r' hfields hr hr'
    exact line?_congr (iff_of_true (buildable_of_data? hr) (buildable_of_data? hr')) hfields

/-- A number that is none, under the name of a fixed field, is replaced by a
later number: the request has a line.  The field added between the two may come
first. -/
theorem line?_merges_fields_of_replaced_nan :
    let nan : Payload := .float ⟨0x7ff8000000000000⟩
    let plain := Request.of "get" 1 ⟨0, [2], [.int 7, .int 8]⟩ ⟨1, [2], [.int 0, .int 1]⟩
    let r := ((plain.withExtra "dp_id" nan).withExtra "x" (.int 3)).withExtra "dp_id" (.int 5)
    let extra := [("x", .int 3), ("dp_id", nan), ("dp_id", .int 5)]
    (∀ key, extra.filter (·.1 == key) = r.extra.filter (·.1 == key)) ∧ ¬nan.Encodable ∧
      { r with extra }.line? ⟨0, 0, 0⟩ = r.line? ⟨0, 0, 0⟩ ∧
      ∃ line, r.line? ⟨0, 0, 0⟩ = some (.ok line) := by
  intro nan plain r extra
  have hdata : r.data? ≠ none := by
    rw [data?_of_buildable (by decide +kernel)]
    exact Option.some_ne_none _
  have hsurvive : ∀ key value, r.field? key = some value → value.Encodable :=
    encodable_merged_iff.1 (by decide +kernel)
  have horder : ∀ key, extra.filter (·.1 == key) = r.extra.filter (·.1 == key) := by
    intro key
    by_cases hx : "x" = key
    · subst hx
      rfl
    · simp [extra, r, plain, withExtra, Request.of, List.filter_cons, hx]
  obtain ⟨-, -, hline, -, -, hexists⟩ := line?_merges_fields r ⟨0, 0, 0⟩
  exact ⟨horder, by decide, hline extra horder, (hexists hdata).2 ⟨by decide, hsurvive⟩⟩

/-- **A replaced field may end it all.**  All that survives can be encoded, but
the array that was replaced asks for a list of `2 ^ 64 - 1` empty lists. -/
theorem line?_eq_none_of_replaced :
    let plain := Request.of "get" 1 ⟨0, [2], [.int 7, .int 8]⟩ ⟨1, [2], [.int 0, .int 1]⟩
    let r := (plain.withExtra "dp_id" (.array 2 [18446744073709551615, 0] [])).withExtra "dp_id"
      (.int 5)
    (∀ key value, r.field? key = some value → value.Encodable) ∧ r.line? ⟨0, 0, 0⟩ = none ∧
      ∃ line, (plain.withExtra "dp_id" (.int 5)).line? ⟨0, 0, 0⟩ = some (.ok line) := by
  intro plain r
  refine ⟨encodable_merged_iff.1 (by decide +kernel), line?_of_not_buildable (by decide +kernel),
    (exists_line_iff (by decide +kernel)).2 ⟨by decide, ?_⟩⟩
  exact encodable_merged_iff.1 (by decide +kernel)

end Request

end TraceLog
