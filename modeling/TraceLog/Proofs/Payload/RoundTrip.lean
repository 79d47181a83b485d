import TraceLog.Payload.Convert
import TraceLog.Proofs.Json.RoundTrip
import TraceLog.Proofs.Payload.Encodable
import TraceLog.Proofs.Payload.Scalars

/-!
# TraceLog.Proofs.Payload.RoundTrip

Payloads read back from their texts.

An unsigned integer that a signed one can hold has the same text as the signed
one, and is read as that; nothing else of a payload without arrays is lost.
Taken over from its document, without a text in between, it comes out the same.

* `Payload.canon` — what a payload is read back as;
* `Payload.Plain` — payloads that have a text which can be read;
* `Payload.Legible` — those whose floating-point numbers are read back;
* `Payload.IsDocumentOf` — the document of a payload and all that is known of it;
* `Payload.encode_read_back` — writing a payload and reading it.
-/

namespace TraceLog

namespace Payload

/-! ## Canonical payloads -/

mutual

/-- The payload in which every unsigned integer that a signed one can hold is a
signed one. -/
def canon : Payload → Payload
  | .uint n =>
    if n.toNat ≤ 9223372036854775807 then .int (Int64.ofNat n.toNat) else .uint n
  | .list items => .list (canonItems items)
  | .map entries => .map (canonValues entries)
  | .null => .null
  | .bool b => .bool b
  | .int n => .int n
  | .float x => .float x
  | .str s => .str s
  | .array handle shape elements => .array handle shape elements

/-- `canon` of every item. -/
def canonItems : List Payload → List Payload
  | [] => []
  | item :: rest => item.canon :: canonItems rest

/-- `canon` of every value of the entries. -/
def canonValues : List (String × Payload) → List (String × Payload)
  | [] => []
  | (key, value) :: rest => (key, value.canon) :: canonValues rest

end

mutual

/-- How many lists and maps are nested in one another. -/
def depth : Payload → Nat
  | .list items => depthItems items + 1
  | .map entries => depthValues entries + 1
  | .null | .bool _ | .int _ | .uint _ | .float _ | .str _ | .array _ _ _ => 0

/-- The greatest depth of the items. -/
def depthItems : List Payload → Nat
  | [] => 0
  | item :: rest => max item.depth (depthItems rest)

/-- The greatest depth of the values of the entries. -/
def depthValues : List (String × Payload) → Nat
  | [] => 0
  | (_, value) :: rest => max value.depth (depthValues rest)

end

/-- Payloads without arrays, whose numbers are finite, whose maps list their
keys in ascending order, and which are not nested too deep to be read. -/
structure Plain (w : Payload) : Prop where
  normalized : w.isNormalized = true
  encodable : w.Encodable
  ordered : w.Ordered
  depth_le : w.depth ≤ Json.nestingLimit

/-- The floating-point numbers of the payload are read back from their own
texts. -/
def Legible (p : Precision) (w : Payload) : Prop := ∀ x, .float x ∈ w.scalars → x.Legible p

/-- They are by a reader that takes the nearest number. -/
theorem legible_nearest (w : Payload) : w.Legible .nearest := fun x _ => x.legible_nearest

/-! ## Integers -/

theorem ofNumber_ofInt64 (n : Int64) : ofNumber (.ofInt64 n) = .int n := by
  have hrange : n.toInt < 9223372036854775808 := n.toInt_lt
  rw [Number.ofInt64, ofNumber, if_pos hrange, Int64.ofInt_toInt]

theorem ofNumber_ofUInt64 (n : UInt64) : ofNumber (.ofUInt64 n) = (Payload.uint n).canon := by
  rw [Number.ofUInt64, ofNumber, canon]
  by_cases hsigned : n.toNat ≤ 9223372036854775807
  · have hbelow : (n.toNat : Int) < 9223372036854775808 := by omega
    rw [if_pos hbelow, if_pos hsigned]
    rfl
  · have habove : ¬(n.toNat : Int) < 9223372036854775808 := by omega
    rw [if_neg habove, if_neg hsigned]
    simp

/-- An unsigned integer and what it is read back as have one document. -/
theorem toJson_canon_uint (n : UInt64) :
    (Payload.uint n).canon.toJson = .ok (.number (.ofUInt64 n)) := by
  rw [canon]
  split
  · next hsigned =>
      have hvalue : (Int64.ofNat n.toNat).toInt = n.toNat :=
        Int64.toInt_ofNat_of_lt (by omega)
      simp only [toJson, Number.ofInt64, Number.ofUInt64, hvalue]
  · rfl

/-! ## Documents -/

/-- All that is known of the document of a payload: it is that of the canonical
payload, too, which is what it is taken over as. -/
structure IsDocumentOf (document : Json) (w : Payload) : Prop where
  toJson_eq : w.toJson = .ok document
  toJson_canon_eq : w.canon.toJson = .ok document
  ofJson_eq : ofJson document = w.canon
  ordered : document.Ordered
  depth_eq : document.depth = w.depth

/-- `IsDocumentOf` for the documents of items. -/
structure AreDocumentsOf (documents : List Json) (items : List Payload) : Prop where
  toJson_eq : itemsToJson items = .ok documents
  toJson_canon_eq : itemsToJson (canonItems items) = .ok documents
  ofJson_eq : ofItems documents = canonItems items
  ordered : Json.OrderedItems documents
  depth_eq : Json.depthItems documents = depthItems items

/-- `IsDocumentOf` for the fields of entries, which have the same keys. -/
structure AreFieldsOf (fields : List (String × Json)) (entries : List (String × Payload)) :
    Prop where
  toJson_eq : entriesToJson entries = .ok fields
  toJson_canon_eq : entriesToJson (canonValues entries) = .ok fields
  ofJson_eq : ofFields fields = canonValues entries
  keys_eq : fields.map (·.1) = entries.map (·.1)
  ordered : Json.OrderedValues fields
  depth_eq : Json.depthValues fields = depthValues entries

theorem AreDocumentsOf.cons {document : Json} {documents : List Json} {item : Payload}
    {items : List Payload} (h : IsDocumentOf document item) (hs : AreDocumentsOf documents items) :
    AreDocumentsOf (document :: documents) (item :: items) where
  toJson_eq := by
    simp [itemsToJson, h.toJson_eq, hs.toJson_eq, bind, Except.bind]
  toJson_canon_eq := by
    simp [canonItems, itemsToJson, h.toJson_canon_eq, hs.toJson_canon_eq, bind, Except.bind]
  ofJson_eq := by rw [ofItems, canonItems, h.ofJson_eq, hs.ofJson_eq]
  ordered := ⟨h.ordered, hs.ordered⟩
  depth_eq := by rw [Json.depthItems, depthItems, h.depth_eq, hs.depth_eq]

theorem AreFieldsOf.cons {document : Json} {fields : List (String × Json)} {value : Payload}
    {entries : List (String × Payload)} (key : String) (h : IsDocumentOf document value)
    (hs : AreFieldsOf fields entries) :
    AreFieldsOf ((key, document) :: fields) ((key, value) :: entries) where
  toJson_eq := by
    simp [entriesToJson, h.toJson_eq, hs.toJson_eq, bind, Except.bind]
  toJson_canon_eq := by
    simp [canonValues, entriesToJson, h.toJson_canon_eq, hs.toJson_canon_eq, bind, Except.bind]
  ofJson_eq := by rw [ofFields, canonValues, h.ofJson_eq, hs.ofJson_eq]
  keys_eq := by rw [List.map_cons, List.map_cons, hs.keys_eq]
  ordered := ⟨h.ordered, hs.ordered⟩
  depth_eq := by rw [Json.depthValues, depthValues, h.depth_eq, hs.depth_eq]

/-- A list has the array of its documents. -/
theorem AreDocumentsOf.array {documents : List Json} {items : List Payload}
    (h : AreDocumentsOf documents items) : IsDocumentOf (.array documents) (.list items) where
  toJson_eq := by simp [toJson, h.toJson_eq, bind, Except.bind]
  toJson_canon_eq := by simp [canon, toJson, h.toJson_canon_eq, bind, Except.bind]
  ofJson_eq := by rw [ofJson, canon, h.ofJson_eq]
  ordered := h.ordered
  depth_eq := by rw [Json.depth, depth, h.depth_eq]

/-- A map has the object of its fields. -/
theorem AreFieldsOf.object {fields : List (String × Json)} {entries : List (String × Payload)}
    (h : AreFieldsOf fields entries) (hascending : Entries.Ascending entries) :
    IsDocumentOf (.object fields) (.map entries) where
  toJson_eq := by simp [toJson, h.toJson_eq, bind, Except.bind]
  toJson_canon_eq := by simp [canon, toJson, h.toJson_canon_eq, bind, Except.bind]
  ofJson_eq := by rw [ofJson, canon, h.ofJson_eq]
  ordered := by
    rw [Entries.ascending_iff_keys, ← h.keys_eq, ← Entries.ascending_iff_keys] at hascending
    exact ⟨hascending, h.ordered⟩
  depth_eq := by rw [Json.depth, depth, h.depth_eq]

mutual

/-- A payload without arrays whose numbers are finite has a document. -/
theorem exists_document (w : Payload) (hnormalized : w.isNormalized = true)
    (hencodable : w.Encodable) (hordered : w.Ordered) : ∃ document, IsDocumentOf document w := by
  match w with
  | .null => exact ⟨.null, rfl, rfl, rfl, trivial, rfl⟩
  | .bool b => exact ⟨.bool b, rfl, rfl, rfl, trivial, rfl⟩
  | .int n => exact ⟨.number (.ofInt64 n), rfl, rfl, ofNumber_ofInt64 n, trivial, rfl⟩
  | .uint n =>
    exact ⟨.number (.ofUInt64 n), rfl, toJson_canon_uint n, ofNumber_ofUInt64 n, trivial, rfl⟩
  | .float x =>
    have hfinite : x.isFinite = true := hencodable
    refine ⟨.number (.float x hfinite), ?_, ?_, rfl, trivial, rfl⟩
    · rw [toJson, dif_pos hfinite]
    · rw [canon, toJson, dif_pos hfinite]
  | .str s => exact ⟨.string s, rfl, rfl, rfl, trivial, rfl⟩
  | .list items =>
    obtain ⟨documents, h⟩ := exists_documents items hnormalized hencodable hordered
    exact ⟨.array documents, h.array⟩
  | .map entries =>
    obtain ⟨fields, h⟩ := exists_fields entries hnormalized hencodable hordered.2
    exact ⟨.object fields, h.object hordered.1⟩
  | .array _ _ _ => contradiction

/-- Items of this kind have documents. -/
theorem exists_documents (items : List Payload) (hnormalized : allNormalized items = true)
    (hencodable : EncodableItems items) (hordered : OrderedItems items) :
    ∃ documents, AreDocumentsOf documents items := by
  match items with
  | [] => exact ⟨[], rfl, rfl, rfl, trivial, rfl⟩
  | item :: rest =>
    rw [allNormalized, Bool.and_eq_true] at hnormalized
    obtain ⟨document, h⟩ := exists_document item hnormalized.1 hencodable.1 hordered.1
    obtain ⟨documents, hs⟩ := exists_documents rest hnormalized.2 hencodable.2 hordered.2
    exact ⟨document :: documents, hs.cons h⟩

/-- Entries of this kind have fields. -/
theorem exists_fields (entries : List (String × Payload))
    (hnormalized : valuesNormalized entries = true) (hencodable : EncodableValues entries)
    (hordered : OrderedValues entries) :
    ∃ fields, AreFieldsOf fields entries := by
  match entries with
  | [] => exact ⟨[], rfl, rfl, rfl, rfl, trivial, rfl⟩
  | (key, value) :: rest =>
    rw [valuesNormalized, Bool.and_eq_true] at hnormalized
    obtain ⟨document, h⟩ := exists_document value hnormalized.1 hencodable.1 hordered.1
    obtain ⟨fields, hs⟩ := exists_fields rest hnormalized.2 hencodable.2 hordered.2
    exact ⟨(key, document) :: fields, hs.cons key h⟩

end

/-! ## Numbers -/

section

variable {p : Precision}

/-- A number of a document is an integer, or a floating-point number of the
payload. -/
theorem legible_of_writtenAs {w : Payload} {n : Number} (h : w.WrittenAs (.number n))
    (hlegible : ∀ x, w = .float x → x.Legible p) : n.Legible p := by
  cases w with
  | int m =>
      cases h
      exact Number.legible_integer p _
  | uint m =>
      cases h
      exact Number.legible_integer p _
  | float x =>
      rw [WrittenAs, toJson] at h
      split at h
      · cases h
        exact (hlegible x rfl).number _
      · cases h
  | list items =>
      rw [WrittenAs, toJson] at h
      cases hitems : itemsToJson items <;> simp [hitems, bind, Except.bind] at h
  | map entries =>
      rw [WrittenAs, toJson] at h
      cases hentries : entriesToJson entries <;> simp [hentries, bind, Except.bind] at h
  | _ => cases h

theorem legible_of_forall₂ {scalars : List Payload} {documents : List Json}
    (h : List.Forall₂ WrittenAs scalars documents)
    (hlegible : ∀ x, .float x ∈ scalars → x.Legible p) :
    ∀ n, .number n ∈ documents → n.Legible p := by
  induction h with
  | nil => simp
  | cons hwritten _ ih =>
      intro n hn
      rcases List.mem_cons.1 hn with rfl | hmem
      · exact legible_of_writtenAs hwritten fun x hx => hlegible x (hx ▸ List.mem_cons_self)
      · exact ih (fun x hx => hlegible x (List.mem_cons_of_mem _ hx)) n hmem

/-- The document of a payload is read back if the payload is. -/
theorem Legible.of_toJson {w : Payload} (h : w.Legible p) {document : Json}
    (hdocument : w.toJson = .ok document) : document.Legible p :=
  legible_of_forall₂ (w.scalars_of_toJson hdocument) h

end

/-! ## Texts -/

/-- A plain payload has a text that is read as the canonical payload, if its
numbers are read back. -/
theorem Plain.exists_text {w : Payload} (h : w.Plain) :
    ∃ text, w.encode = .ok text ∧
      (∀ p, w.Legible p → (Json.read (String.ofList text) p).map ofJson = .ok w.canon) ∧
      w.reread = .ok w.canon ∧ w.canon.encode = .ok text := by
  obtain ⟨document, hdocument⟩ := exists_document w h.normalized h.encodable h.ordered
  refine ⟨document.render, ?_, fun p hlegible => ?_, ?_, ?_⟩
  · rw [encode, hdocument.toJson_eq]
    rfl
  · have hread := Json.read_render hdocument.ordered (hdocument.depth_eq ▸ h.depth_le)
      (hlegible.of_toJson hdocument.toJson_eq)
    rw [hread, ← hdocument.ofJson_eq]
    rfl
  · rw [reread, hdocument.toJson_eq, ← hdocument.ofJson_eq]
    rfl
  · rw [encode, hdocument.toJson_canon_eq]
    rfl

/-- **Writing a payload and reading it.**  A plain payload has a text.  Reading
it and taking the document over gives the canonical payload, provided that the
reader reads the floating-point numbers back; so does taking it over without a
text, and the canonical payload has the same text.  Two plain payloads have the
same text exactly if they have the same canonical payload. -/
theorem encode_read_back {w : Payload} (h : w.Plain) :
    (∃ text, w.encode = .ok text ∧
      (∀ p, w.Legible p → (Json.read (String.ofList text) p).map ofJson = .ok w.canon) ∧
      w.reread = .ok w.canon ∧ w.canon.encode = .ok text) ∧
    ∀ v : Payload, v.Plain → (w.encode = v.encode ↔ w.canon = v.canon) := by
  refine ⟨h.exists_text, fun v hv => ?_⟩
  obtain ⟨text, hencode, hread, -, hcanon⟩ := h.exists_text
  obtain ⟨text', hencode', hread', -, hcanon'⟩ := hv.exists_text
  constructor
  · intro hsame
    have hnearest := hread .nearest w.legible_nearest
    rw [hencode, hencode', Except.ok.injEq] at hsame
    rw [hsame, hread' .nearest v.legible_nearest, Except.ok.injEq] at hnearest
    exact hnearest.symm
  · intro hsame
    rw [hencode, hencode', ← hcanon, ← hcanon', hsame]

/-- Two maps that differ in the type of an integer: one text, and one canonical
payload that it is read as, since the number nearest to a tenth is read back. -/
theorem encode_read_back_of_signed_and_unsigned :
    let items (n : Payload) : Payload := .list
      [n, .uint 9223372036854775808, .float ⟨4591870180066957722⟩, .str "\x01\"", .null]
    let w : Payload := .map [("k\n", items (.uint 5)), ("l", .map [])]
    let v : Payload := .map [("k\n", items (.int 5)), ("l", .map [])]
    w.Plain ∧ v.Plain ∧
      w.encode.toOption.map String.ofList =
        some "\x7b\"k\\n\":[5,9223372036854775808,0.1,\"\\u0001\\\"\",null],\"l\":\x7b\x7d\x7d" ∧
      w.Legible .bestEffort ∧
      (∃ text, w.encode = .ok text ∧
        (Json.read (String.ofList text)).map ofJson = .ok v ∧ w.reread = .ok v) ∧
      w.encode = v.encode := by
  intro items w v
  have hplain : ∀ n, n = .uint 5 ∨ n = .int 5 →
      (Payload.map [("k\n", items n), ("l", .map [])]).Plain := by
    intro n hn
    have hordered : n.Ordered := by rcases hn with rfl | rfl <;> trivial
    have hless : "k\n" < "l" := by decide
    have hkeys : Entries.Ascending [("k\n", items n), ("l", .map [])] := List.pairwise_pair.2 hless
    refine ⟨?_, ?_, ⟨hkeys, ?_⟩, ?_⟩
    · rcases hn with rfl | rfl <;> decide
    · rcases hn with rfl | rfl <;> decide
    · simp [OrderedValues, items, Ordered, OrderedItems, hordered, Entries.Ascending]
    · rcases hn with rfl | rfl <;> decide
  have hw : w.Plain := hplain _ (.inl rfl)
  have hv : v.Plain := hplain _ (.inr rfl)
  have hcanon : w.canon = v := by rfl
  obtain ⟨⟨text, hencode, hread, hreread, -⟩, hsame⟩ := encode_read_back hw
  have hlegible : w.Legible .bestEffort := by
    intro x hx
    have htenth : x = ⟨4591870180066957722⟩ := by
      simpa [w, items, scalars, itemsScalars, valuesScalars] using hx
    subst htenth
    exact Binary64.legible_of_number fun hfinite =>
      Number.legible_of_length_le hfinite (by decide +kernel) (by decide +kernel)
  rw [hcanon] at hread hreread
  refine ⟨hw, hv, by decide +kernel, hlegible,
    ⟨text, hencode, hread .bestEffort hlegible, hreread⟩, ?_⟩
  exact (hsame v hv).2 rfl

end Payload

end TraceLog
