import TraceLog.Proofs.Schema.Members
import TraceLog.Proofs.Schema.RoundTrip

/-!
# TraceLog.Proofs.Schema.Overlay

Records of which a text gives some fields only.

A record that is read is what stands in for missing fields, with those replaced
that the text gives.  An object gives them by its members, in whatever order;
an array lists the first ones.  An object that gives a field twice is not read,
whatever follows the second name.

* `Fields.overlay` — a record with some fields replaced;
* `Fields.ListedBy` — the fields that the items of an array give;
* `Fields.read_object` / `Fields.read_array` — what is given is overlaid;
* `Fields.read_duplicate` — unless a field is given twice.
-/

namespace TraceLog

open Json (Blank Labels)
open Json.Reader

/-! ## Texts -/

/-- The text of an object. -/
def objectText (members : List Member) (gap : List Char) : List Char :=
  '{' :: (Json.commaSeparated (members.map Member.text) ++ (gap ++ ['}']))

/-- The text of an array. -/
def arrayText (items : List String) (gap : List Char) : List Char :=
  '[' :: (Json.commaSeparated (items.map String.toList) ++ (gap ++ [']']))

/-- A record in braces. -/
theorem Json.Reader.record_brace {α : Type} {p : Precision} {before : List Char}
    (hbefore : Blank before) (name : String) (elements fields : Nat → Json.Reader α) (depth : Nat)
    (cs : List Char) :
    record p name elements fields (depth + 1) (before ++ '{' :: cs) = fields depth cs := by
  rw [record.eq_def, skipBlank_blank hbefore]
  rfl

/-- A record in brackets. -/
theorem Json.Reader.record_bracket {α : Type} {p : Precision} {before : List Char}
    (hbefore : Blank before) (name : String) (elements fields : Nat → Json.Reader α) (depth : Nat)
    (cs : List Char) :
    record p name elements fields (depth + 1) (before ++ '[' :: cs) = elements depth cs := by
  rw [record.eq_def, skipBlank_blank hbefore]
  rfl

namespace Fields

variable {p : Precision} {name : String} {s : Schema} {rest : Fields} {depth : Nat}
variable {before gap after : List Char}

/-! ## Records with some fields replaced -/

/-- The record with the fields that are given, and the others as they were. -/
def overlay : (fields : Fields) → fields.Val → fields.Partial → fields.Val
  | .nil, _, _ => ()
  | .cons _ _ rest, (v, vs), (given, more) => (given.getD v, rest.overlay vs more)

/-- The record is complete with what stands in for missing fields. -/
theorem complete_some (fields : Fields) (standard : fields.Val) (given : fields.Partial) :
    fields.complete (some standard) given = .ok (fields.overlay standard given) := by
  match fields, standard, given with
  | .nil, _, _ => rfl
  | .cons name s rest, (v, vs), (given, more) =>
    have hrest : rest.complete (some vs) more = .ok (rest.overlay vs more) :=
      rest.complete_some vs more
    cases given with
    | none => exact congrArg (· >>= fun ws => Except.ok (v, ws)) hrest
    | some w => exact congrArg (· >>= fun ws => Except.ok (w, ws)) hrest

/-! ## Objects -/

/-- **The fields that the members of an object give are overlaid**, whatever
their order, and whatever else stands between them. -/
theorem read_object (fields : Fields) (hfields : fields.recordFree = true) (record : String)
    (standard : fields.Val) {given : fields.Partial} {members : List Member}
    (h : fields.GivenBy p depth given members) (hbefore : Blank before) (hgap : Blank gap)
    (hafter : Blank after) :
    Json.readWith (fields.read p record (some standard) (depth + 1))
        (String.ofList (before ++ (objectText members gap ++ after))) =
      .ok (fields.overlay standard given) := by
  have hmembers := fields_parts (giveAll_of_givenBy fields hfields h).takesFields hgap after
  have hread : fields.read p record (some standard) (depth + 1)
      (before ++ (objectText members gap ++ after)) =
        .ok (fields.overlay standard given, after) := by
    rw [Fields.read, objectText, List.cons_append, record_brace hbefore]
    simp only [List.append_assoc, List.cons_append, List.nil_append, fieldsOf, hmembers,
      complete_some, bind, Except.bind]
  rw [Json.readWith, String.toList_ofList, hread]
  exact if_pos (blank_iff.1 hafter)

/-- **A field that is given twice is reported**, if the members in front of its
second name have their types; whatever its second value is and whatever
follows. -/
theorem read_duplicate (fields : Fields) (hfields : fields.recordFree = true) (record : String)
    (standard : fields.Val) {front : List Member} (hfront : ∀ m ∈ front, fields.Admits p depth m)
    {again : Member} (hkey : again.key ∈ fields.names) (hagain : again.key ∈ front.map (·.key))
    (back : List Member) (hbefore : Blank before) (gap after : List Char) :
    ∃ key ∈ fields.names, 2 ≤ ((front ++ [again]).map (·.key)).count key ∧
      Json.readWith (fields.read p record (some standard) (depth + 1))
          (String.ofList (before ++ (objectText (front ++ again :: back) gap ++ after))) =
        .error (.mismatch (.duplicateField key)) := by
  obtain ⟨first, second, behind, more, hsplit, hname, htwice, hfirst, hmore⟩ :=
    fields.exists_again hfields hfront fields.none hkey (.inr hagain)
  have hmembers : front ++ again :: back = first ++ second :: (behind ++ back) := by
    rw [← List.singleton_append, ← List.append_assoc, hsplit, List.append_assoc, List.cons_append]
  refine ⟨second.key, hname, by simpa [timesGiven, has_none] using htwice, ?_⟩
  obtain ⟨tail, hstart, between, -, hkeyed⟩ := second.keyed_text (σ := fields.Partial)
  have hfault (more' : List Char) : fieldsOf.keyed (fields.readValue p depth) more
      ('"' :: (tail ++ more')) = .error (.mismatch (.duplicateField second.key)) := by
    rw [hkeyed, fields.readValue_of_has hmore]
  have hfields := fields_parts_error hfirst.takesFields hstart hfault
    ((behind ++ back).map Member.text) (gap ++ '}' :: after)
  have hread : fields.read p record (some standard) (depth + 1)
      (before ++ (objectText (first ++ second :: (behind ++ back)) gap ++ after)) =
        .error (.mismatch (.duplicateField second.key)) := by
    rw [Fields.read, objectText, List.cons_append, record_brace hbefore]
    simp only [List.map_append, List.map_cons, List.append_assoc, List.cons_append, List.nil_append,
      fieldsOf, bind, Except.bind] at hfields ⊢
    rw [hfields]
  rw [hmembers, Json.readWith, String.toList_ofList, hread]
  rfl

/-! ## Arrays -/

/-- The items are texts of these fields, the first ones in order. -/
def ListedBy (p : Precision) : (fields : Fields) → (depth : Nat) → fields.Partial →
    List String → Prop
  | .nil, _, _, items => items = []
  | .cons _ _ rest, depth, (given, more), [] => given = Option.none ∧ rest.ListedBy p depth more []
  | .cons _ s rest, depth, (given, more), item :: items =>
    (∃ v, given = some v ∧ Json.readWith (s.read p depth) item = .ok v) ∧
      rest.ListedBy p depth more items

/-- Nothing is overlaid if nothing is listed. -/
theorem overlay_of_listedBy_nil (fields : Fields) {given : fields.Partial}
    (h : fields.ListedBy p depth given []) (standard : fields.Val) :
    fields.overlay standard given = standard := by
  match fields, given, standard with
  | .nil, _, _ => rfl
  | .cons name s rest, (given, more), (v, vs) =>
    rw [ListedBy] at h
    obtain ⟨rfl, hrest⟩ := h
    exact congrArg (Prod.mk v) (rest.overlay_of_listedBy_nil hrest vs)

/-- Commas do not go on with a number. -/
theorem endsNumber_flatMap (parts : List (List Char)) {more : List Char} (hmore : EndsNumber more) :
    EndsNumber (parts.flatMap (',' :: ·) ++ more) := by
  cases parts with
  | nil => exact hmore
  | cons part parts => exact endsNumber_cons (by simp) _

/-- The first element stands behind blanks. -/
theorem element_first {part tail : List Char} {c : Char} (hstart : skipBlank part = c :: tail)
    (hc : c ≠ ']') (more : List Char) :
    element true (part ++ more) = .ok (.next (c :: (tail ++ more))) := by
  rw [element, skipBlank_append hstart]
  split
  · contradiction
  · next heq => exact absurd (List.cons.inj heq).1 hc
  · rfl

/-- Any other element stands behind a comma. -/
theorem element_comma {blanks part tail : List Char} {c : Char} (hblanks : Blank blanks)
    (hstart : skipBlank part = c :: tail) (hc : c ≠ ']') (more : List Char) :
    element false (blanks ++ ',' :: (part ++ more)) = .ok (.next (c :: (tail ++ more))) := by
  rw [element, skipBlank_mark hblanks (.inl rfl)]
  simp [skipBlank_append hstart, hc]

/-- No element stands in front of the bracket. -/
theorem element_bracket {gap : List Char} (hgap : Blank gap) (first : Bool) (more : List Char) :
    element first (gap ++ ']' :: more) = .ok (.done more) := by
  rw [element, skipBlank_mark hgap (.inr (.inl rfl))]
  rfl

/-- A value is taken from the front, and the others behind it. -/
theorem readElements_next {record : String} {index total : Nat} {standard : s.Val × rest.Val}
    {cs cs' : List Char} {v : s.Val} {vs : rest.Val} {text behind : List Char}
    (helement : element (index == 0) cs = .ok (.next text))
    (hvalue : s.read p depth text = .ok (v, cs'))
    (hothers : rest.readElements p record (index + 1) total (some standard.2) depth cs' =
      .ok (vs, behind)) :
    (cons name s rest).readElements p record index total (some standard) depth cs =
      .ok ((v, vs), behind) := by
  have hnext : (cons name s rest).readElements p record index total (some standard) depth cs =
      (rest.readElements p record (index + 1) total (some standard.2) depth cs' >>= fun others =>
        .ok ((v, others.1), others.2)) := by
    rw [readElements, helement]
    simp only [bind, Except.bind, hvalue]
    rfl
  rw [hnext, hothers]
  rfl

theorem closing_bracket {α : Type} {gap : List Char} (hgap : Blank gap) (value : α)
    (more : List Char) : closing value (gap ++ ']' :: more) = .ok (value, more) := by
  rw [closing.eq_def, skipBlank_mark hgap (.inr (.inl rfl))]
  rfl

/-- Where nothing more is listed, nothing more is overlaid. -/
theorem readElements_none (fields : Fields) {record : String} {standard : fields.Val}
    {given : fields.Partial} (h : fields.ListedBy p depth given []) (hgap : Blank gap)
    (index total : Nat) (behind : List Char) :
    fields.readElements p record index total (some standard) depth (gap ++ ']' :: behind) =
      .ok (fields.overlay standard given, behind) := by
  rw [overlay_of_listedBy_nil fields h]
  match fields, standard with
  | .nil, standard => exact closing_bracket hgap _ behind
  | .cons name s rest, standard =>
    rw [readElements, element_bracket hgap]
    rfl

/-- Where an item stands, it is overlaid, and so are those behind it. -/
theorem readElements_items (fields : Fields) (hfields : fields.recordFree = true) (record : String)
    (standard : fields.Val) {given : fields.Partial} {item : String} {items : List String}
    (h : fields.ListedBy p depth given (item :: items)) (hgap : Blank gap) {index : Nat}
    (total : Nat) {cs behind : List Char}
    (helement : ∀ c tail, skipBlank item.toList = c :: tail → c ≠ ']' →
      element (index == 0) cs = .ok (.next (c :: (tail ++
        ((items.map String.toList).flatMap (',' :: ·) ++ (gap ++ ']' :: behind)))))) :
    fields.readElements p record index total (some standard) depth cs =
      .ok (fields.overlay standard given, behind) := by
  match fields, given, standard with
  | .nil, given, standard =>
    rw [ListedBy] at h
    contradiction
  | .cons name s rest, (given, more), (v, vs) =>
    rw [recordFree, Bool.and_eq_true] at hfields
    rw [ListedBy] at h
    obtain ⟨⟨w, rfl, hitem⟩, hothers⟩ := h
    obtain ⟨c, tail, hstart, hc, htakes⟩ := (s.local_read hfields.1 depth).takesFrom hitem
    obtain ⟨blanks, hblanks, hvalue⟩ := htakes
      ((items.map String.toList).flatMap (',' :: ·) ++ (gap ++ ']' :: behind))
      (endsNumber_flatMap _ (endsNumber_blank hgap (endsNumber_cons (by simp) behind)))
    refine readElements_next (helement c tail hstart hc) hvalue ?_
    cases items with
    | nil =>
        have hends : rest.readElements p record (index + 1) total (some vs) depth
            (blanks ++ gap ++ ']' :: behind) = .ok (rest.overlay vs more, behind) :=
          rest.readElements_none hothers (List.forall_mem_append.2 ⟨hblanks, hgap⟩) _ _ _
        rwa [List.append_assoc] at hends
    | cons next items =>
        refine rest.readElements_items hfields.2 record vs hothers hgap total ?_
        intro d ds hnext hd
        rw [List.map_cons, List.flatMap_cons, List.cons_append, List.cons_append, List.append_assoc]
        exact element_comma hblanks hnext hd _

/-- **The items of an array are overlaid** as the first fields. -/
theorem read_array (fields : Fields) (hfields : fields.recordFree = true) (record : String)
    (standard : fields.Val) {given : fields.Partial} {items : List String}
    (h : fields.ListedBy p depth given items) (hbefore : Blank before) (hgap : Blank gap)
    (hafter : Blank after) :
    Json.readWith (fields.read p record (some standard) (depth + 1))
        (String.ofList (before ++ (arrayText items gap ++ after))) =
      .ok (fields.overlay standard given) := by
  have helements : fields.readElements p record 0 fields.length (some standard) depth
      (Json.commaSeparated (items.map String.toList) ++ (gap ++ ']' :: after)) =
        .ok (fields.overlay standard given, after) := by
    cases items with
    | nil => exact fields.readElements_none h hgap 0 fields.length after
    | cons item items =>
        refine fields.readElements_items hfields record standard h hgap fields.length
          fun c tail hstart hc => ?_
        rw [List.map_cons, Json.commaSeparated_cons, List.append_assoc]
        exact element_first hstart hc _
  have hread : fields.read p record (some standard) (depth + 1)
      (before ++ (arrayText items gap ++ after)) = .ok (fields.overlay standard given, after) := by
    rw [Fields.read, arrayText, List.cons_append, record_bracket hbefore]
    simpa only [List.append_assoc, List.cons_append, List.nil_append] using helements
  rw [Json.readWith, String.toList_ofList, hread]
  exact if_pos (blank_iff.1 hafter)

/-! ## Texts of given values -/

/-- A value that fits is read from its text alone. -/
theorem readWith_render {s : Schema} (hs : s.unambiguous = true) {v w : s.Val}
    (hv : s.Fits depth v) (h : s.ReadAs p v w) :
    Json.readWith (s.read p depth) (String.ofList (s.toJson v).render) = .ok w := by
  have hread := s.reads hs hv h [] (by simp [EndsNumber])
  rw [Json.readWith, String.toList_ofList, Json.render, hread]
  rfl

/-- A member as it is written. -/
def compactMember (key : String) (document : Json) : Member where
  key := key
  label := Json.quote key ++ [':']
  value := String.ofList document.render
  named := by
    refine ⟨Json.escape key.toList ++ ['"'], string_quote key [], ?_⟩
    have hlabel : Labels (Json.escape key.toList ++ ['"'])
        ([] ++ '"' :: (Json.escape key.toList ++ ['"'] ++ ([] ++ [':']))) :=
      .intro (by simp [Blank]) (by simp [Blank])
    simpa [Json.quote] using hlabel

/-- The values that are given are read back from their texts. -/
def PartsLegible (p : Precision) : (fields : Fields) → fields.Partial → Prop
  | .nil, _ => True
  | .cons _ s rest, (v, more) => (∀ x ∈ v, s.ReadAs p x x) ∧ rest.PartsLegible p more

/-- **Any fields can be given**, if their values are read from their texts. -/
theorem exists_givenBy (fields : Fields) (hfields : fields.unambiguous = true)
    {given : fields.Partial} (h : fields.PartsFit depth given)
    (hlegible : fields.PartsLegible p given) :
    ∃ members, fields.GivenBy p depth given members ∧ ∀ m ∈ members, m.key ∈ fields.names := by
  match fields, given with
  | .nil, given => exact ⟨[], by rw [GivenBy]; simp, by simp⟩
  | .cons name s rest, (given, more) =>
    simp only [Fields.unambiguous, Bool.and_eq_true, Bool.not_eq_true', List.contains_eq_mem,
      decide_eq_false_iff_not] at hfields
    obtain ⟨⟨hname, hs⟩, hrest⟩ := hfields
    obtain ⟨members, hgiven, hkeys⟩ := rest.exists_givenBy hrest h.2 hlegible.2
    have hne : ∀ m ∈ members, m.key ≠ name := fun m hm heq => hname (heq ▸ hkeys m hm)
    have hnone : members.filter (·.key == name) = [] := by
      simpa [List.filter_eq_nil_iff] using hne
    have hall : members.filter (·.key != name) = members :=
      List.filter_eq_self.2 fun m hm => bne_iff_ne.2 (hne m hm)
    have hothers : ∀ m ∈ members, m.key ∈ (cons name s rest).names := fun m hm =>
      List.mem_cons_of_mem _ (hkeys m hm)
    cases given with
    | none =>
        refine ⟨members, ?_, hothers⟩
        rw [GivenBy, hnone, hall]
        exact ⟨rfl, hgiven⟩
    | some v =>
        refine ⟨compactMember name (s.toJson v) :: members, ?_,
          List.forall_mem_cons.2 ⟨List.mem_cons_self, hothers⟩⟩
        have hread := readWith_render hs (h.1 v rfl) (hlegible.1 v rfl)
        have heq : ((compactMember name (s.toJson v)).key == name) = true := beq_self_eq_true name
        have hneq : ((compactMember name (s.toJson v)).key != name) = false :=
          bne_self_eq_false name
        rw [GivenBy]
        simp only [List.filter_cons, heq, hneq, hnone, hall, if_true, Bool.false_eq_true, if_false]
        exact ⟨congrArg (fun result => [result]) hread, hgiven⟩

/-- The first fields of a record. -/
def firsts : (fields : Fields) → (count : Nat) → fields.Val → fields.Partial
  | fields, 0, _ => fields.none
  | .nil, _ + 1, _ => ()
  | .cons _ _ rest, count + 1, (v, vs) => (some v, rest.firsts count vs)

theorem listedBy_none (fields : Fields) : fields.ListedBy p depth fields.none [] := by
  match fields with
  | .nil => rw [ListedBy]
  | .cons name s rest => exact ⟨rfl, rest.listedBy_none⟩

/-- **As many fields can be listed as there are.** -/
theorem exists_listedBy (fields : Fields) (hfields : fields.unambiguous = true) {v : fields.Val}
    (hv : fields.Fits depth v) {count : Nat} (hcount : count ≤ fields.length)
    (hlegible : fields.PartsLegible p (fields.firsts count v)) :
    ∃ items, items.length = count ∧ fields.ListedBy p depth (fields.firsts count v) items := by
  match count, fields, v with
  | 0, fields, v =>
    refine ⟨[], rfl, ?_⟩
    rw [firsts]
    exact fields.listedBy_none
  | count + 1, .nil, _ => contradiction
  | count + 1, .cons name s rest, (v, vs) =>
    simp only [Fields.unambiguous, Bool.and_eq_true] at hfields
    obtain ⟨items, hlength, hlisted⟩ :=
      rest.exists_listedBy hfields.2 hv.2 (Nat.le_of_succ_le_succ hcount) hlegible.2
    refine ⟨String.ofList (s.toJson v).render :: items, by rw [List.length_cons, hlength], ?_⟩
    exact ⟨⟨v, rfl, readWith_render hfields.1.2 hv.1 (hlegible.1 v rfl)⟩, hlisted⟩

end Fields

end TraceLog
