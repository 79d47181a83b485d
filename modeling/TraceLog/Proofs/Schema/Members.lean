import TraceLog.Proofs.Schema.Extended

/-!
# TraceLog.Proofs.Schema.Members

The members of an object and the fields that they give.

The members of an object are taken one after the other, each into the place of
its key; a member that no field knows is passed over.  So it is the members
under its key that say what becomes of a field, whatever stands between them.
A field that is given once more is reported before its value is looked at.

* `Member` — a field of an object as it stands in a text;
* `Fields.GivenBy` — the fields that members give;
* `Fields.giveAll_of_givenBy` — they are read, in whatever order;
* `Fields.exists_again` — the first field that is given once more.
-/

namespace TraceLog

open Json (Blank Fault IsJson Labels)
open Json.Reader

/-- A field of an object as it stands in a text: its name with the colon, and
its value, with blanks anywhere. -/
structure Member where
  key : String
  label : List Char
  value : String
  named : ∃ name, string name = .ok (key, []) ∧ Labels name label

/-- The text of a member. -/
def Member.text (m : Member) : List Char := m.label ++ m.value.toList

/-! ## Members one after the other -/

section

variable {σ : Type} {value : String → σ → Json.Reader σ} {s t u : σ} {members : List Member}

/-- The member takes the reader of the value under its key from one state to
another. -/
def Member.Gives (m : Member) (value : String → σ → Json.Reader σ) (s t : σ) : Prop :=
  ∀ after, Blank after → Takes (value m.key s) (after ++ ':' :: m.value.toList) t

/-- Members take the reader from one state to another, one after the other. -/
inductive Member.GiveAll (value : String → σ → Json.Reader σ) : List Member → σ → σ → Prop
  | nil (s : σ) : GiveAll value [] s s
  | cons {m : Member} {members : List Member} {s t u : σ} :
    m.Gives value s t → GiveAll value members t u → GiveAll value (m :: members) s u

/-- The reader of a field comes from the name of a member to its value. -/
theorem Member.keyed_text (m : Member) :
    ∃ tail, skipBlank m.text = '"' :: tail ∧ ∃ after, Blank after ∧ ∀ value (s : σ) more,
      fieldsOf.keyed value s ('"' :: (tail ++ more)) =
        value m.key s (after ++ ':' :: m.value.toList ++ more) := by
  obtain ⟨key, label, text, name, hname, hlabel⟩ := m
  cases hlabel with
  | @intro before after hbefore hafter =>
      refine ⟨name ++ (after ++ ':' :: text.toList), ?_, after, hafter, fun value s more => ?_⟩
      · simp only [Member.text, List.append_assoc, List.cons_append, List.nil_append,
          skipBlank_blank hbefore]
        rfl
      · have hcolon : EndsNumber (after ++ ':' :: text.toList ++ more) := by
          rw [List.append_assoc]
          refine endsNumber_blank hafter ?_
          rintro _ ⟨⟩
          decide
        have hread := (extends_string hname).2 _ fun _ => hcolon
        simp only [List.append_assoc, List.cons_append, List.nil_append] at hread ⊢
        simp only [fieldsOf.keyed, Json.Reader.name, hread, bind, Except.bind]

theorem Member.Gives.takesFrom {m : Member} (h : m.Gives value s t) :
    TakesFrom (· = '"') (fieldsOf.keyed value s) m.text t := by
  obtain ⟨tail, hstart, after, hafter, hkeyed⟩ := m.keyed_text (σ := σ)
  refine ⟨'"', tail, hstart, rfl, fun more hmore => ?_⟩
  obtain ⟨blanks, hblanks, hread⟩ := h after hafter more hmore
  refine ⟨blanks, hblanks, ?_⟩
  rw [List.cons_append, hkeyed, hread]

theorem Member.GiveAll.takesFields (h : Member.GiveAll value members s t) :
    TakesFields (fieldsOf.keyed value) (members.map Member.text) s t := by
  induction h with
  | nil s => exact .nil s
  | cons hm _ ih => exact .cons hm.takesFrom ih

end

namespace Fields

variable {p : Precision} {name : String} {s : Schema} {rest : Fields} {depth : Nat}

/-! ## Members that give fields -/

/-- The members give exactly these fields: each of them once, with a text of
the value.  The members that no field knows are values of any kind. -/
def GivenBy (p : Precision) : (fields : Fields) → (depth : Nat) → fields.Partial →
    List Member → Prop
  | .nil, _, _, members => ∀ m ∈ members, IsJson m.value.toList
  | .cons name s rest, depth, (given, more), members =>
    (members.filter (·.key == name)).map (fun m => Json.readWith (s.read p depth) m.value) =
        given.toList.map .ok ∧
      rest.GivenBy p depth more (members.filter (·.key != name))

/-- **Neither the order of the members matters, nor do members that no field
knows.** -/
theorem givenBy_of_perm (fields : Fields) {given : fields.Partial}
    {members unknown members' : List Member} (h : fields.GivenBy p depth given members)
    (hunknown : ∀ m ∈ unknown, m.key ∉ fields.names ∧ IsJson m.value.toList)
    (hperm : members'.Perm (members ++ unknown)) : fields.GivenBy p depth given members' := by
  match fields, given with
  | .nil, given =>
    rw [GivenBy] at h ⊢
    intro m hm
    rcases List.mem_append.1 (hperm.mem_iff.1 hm) with hknown | hother
    · exact h m hknown
    · exact (hunknown m hother).2
  | .cons name s rest, (given, more) =>
    rw [GivenBy] at h ⊢
    simp only [names, List.mem_cons, not_or] at hunknown
    have hnone : unknown.filter (·.key == name) = [] := by
      simpa [List.filter_eq_nil_iff] using fun m hm => (hunknown m hm).1.1
    have hall : unknown.filter (·.key != name) = unknown :=
      List.filter_eq_self.2 fun m hm => bne_iff_ne.2 (hunknown m hm).1.1
    have hfirst := (hperm.filter (·.key == name)).map fun m =>
      Json.readWith (s.read p depth) m.value
    have hothers := hperm.filter (·.key != name)
    rw [List.filter_append, hnone, List.append_nil, h.1] at hfirst
    rw [List.filter_append, hall] at hothers
    refine ⟨?_, rest.givenBy_of_perm h.2 (fun m hm => ⟨(hunknown m hm).1.2, (hunknown m hm).2⟩)
      hothers⟩
    cases given with
    | none => exact List.perm_nil.1 hfirst
    | some v => exact List.perm_singleton.1 hfirst

/-- A member of a field has a value of its type, and any other member has a
value of any kind. -/
def Admits (p : Precision) : (fields : Fields) → (depth : Nat) → Member → Prop
  | .nil, _, m => IsJson m.value.toList
  | .cons name s rest, depth, m =>
    if m.key = name then ∃ v, Json.readWith (s.read p depth) m.value = .ok v
    else rest.Admits p depth m

/-- No field holds a record. -/
def recordFree : Fields → Bool
  | .nil => true
  | .cons _ s rest => s.recordFree && rest.recordFree

/-- The first field fills its place. -/
theorem gives_first (hs : s.recordFree = true) {m : Member} (hkey : m.key = name) {v : s.Val}
    (hread : Json.readWith (s.read p depth) m.value = .ok v) (more : rest.Partial) :
    m.Gives ((cons name s rest).readValue p depth) (Option.none, more) (some v, more) := by
  intro after hafter behind hbehind
  obtain ⟨blanks, hblanks, hvalue⟩ :=
    takes_of_readWith (s.local_read hs depth).extended hread behind hbehind
  refine ⟨blanks, hblanks, ?_⟩
  simp only [List.append_assoc, List.cons_append, readValue, if_pos hkey,
    colon_append hafter, hvalue, bind, Except.bind]

/-- A member with another key gives one of the other fields. -/
theorem gives_others {m : Member} {read more : rest.Partial}
    (h : m.Gives (rest.readValue p depth) read more) (hkey : m.key ≠ name) (v : Option s.Val) :
    m.Gives ((cons name s rest).readValue p depth) (v, read) (v, more) := by
  intro after hafter behind hbehind
  obtain ⟨blanks, hblanks, hread⟩ := h after hafter behind hbehind
  refine ⟨blanks, hblanks, ?_⟩
  simp only [readValue, if_neg hkey, hread, bind, Except.bind]

/-- A member that no field knows is passed over. -/
theorem gives_unknown {m : Member} (h : IsJson m.value.toList) (read : Fields.nil.Partial) :
    m.Gives (Fields.nil.readValue p depth) read read := by
  intro after hafter behind hbehind
  obtain ⟨blanks, hblanks, hskip⟩ := takes_skip h behind hbehind
  refine ⟨blanks, hblanks, ?_⟩
  simp only [List.append_assoc, List.cons_append, readValue, colon_append hafter, hskip, bind,
    Except.bind]

/-- The others are given beside the first field. -/
theorem giveAll_others {members : List Member} {read more : rest.Partial}
    (h : Member.GiveAll (rest.readValue p depth) members read more)
    (hkeys : ∀ m ∈ members, m.key ≠ name) (v : Option s.Val) :
    Member.GiveAll ((cons name s rest).readValue p depth) members (v, read) (v, more) := by
  induction h with
  | nil read => exact .nil (v, read)
  | cons hm _ ih =>
      rw [List.forall_mem_cons] at hkeys
      exact .cons (gives_others hm hkeys.1 v) (ih hkeys.2)

/-- The first field is given by its member, wherever that stands. -/
theorem giveAll_cons (hs : s.recordFree = true) {members : List Member} {given : Option s.Val}
    {read more : rest.Partial}
    (hfirst : (members.filter (·.key == name)).map
      (fun m => Json.readWith (s.read p depth) m.value) = given.toList.map .ok)
    (hothers : Member.GiveAll (rest.readValue p depth) (members.filter (·.key != name)) read more) :
    Member.GiveAll ((cons name s rest).readValue p depth) members (Option.none, read)
      (given, more) := by
  induction members generalizing read with
  | nil =>
      cases hothers
      cases given with
      | none => exact .nil _
      | some v => simp at hfirst
  | cons m members ih =>
      by_cases hkey : m.key = name
      · have heq : (m.key == name) = true := beq_iff_eq.2 hkey
        have hne : (m.key != name) = false := by simp [hkey]
        simp only [List.filter_cons, heq, if_true, List.map_cons] at hfirst
        simp only [List.filter_cons, hne, Bool.false_eq_true, if_false] at hothers
        obtain ⟨v, rfl⟩ : ∃ v, given = some v := by
          cases given with
          | none => simp at hfirst
          | some v => exact ⟨v, rfl⟩
        simp only [Option.toList, List.map_cons, List.map_nil, List.cons.injEq,
          List.map_eq_nil_iff] at hfirst
        have hnone : ∀ m ∈ members, m.key ≠ name := by
          simpa [List.filter_eq_nil_iff] using hfirst.2
        rw [List.filter_eq_self.2 fun m hm => bne_iff_ne.2 (hnone m hm)] at hothers
        exact .cons (gives_first hs hkey hfirst.1 read) (giveAll_others hothers hnone (some v))
      · have heq : (m.key == name) = false := beq_eq_false_iff_ne.2 hkey
        have hne : (m.key != name) = true := bne_iff_ne.2 hkey
        simp only [List.filter_cons, heq, Bool.false_eq_true, if_false] at hfirst
        simp only [List.filter_cons, hne, if_true] at hothers
        cases hothers with
        | cons hm hrest => exact .cons (gives_others hm hkey Option.none) (ih hfirst hrest)

/-- **The members give their fields**, in whatever order. -/
theorem giveAll_of_givenBy (fields : Fields) (hfields : fields.recordFree = true)
    {given : fields.Partial} {members : List Member} (h : fields.GivenBy p depth given members) :
    Member.GiveAll (fields.readValue p depth) members fields.none given := by
  match fields, given with
  | .nil, given =>
    rw [GivenBy] at h
    induction members with
    | nil => exact .nil _
    | cons m members ih =>
        rw [List.forall_mem_cons] at h
        exact .cons (gives_unknown h.1 _) (ih h.2)
  | .cons name s rest, (given, more) =>
    rw [recordFree, Bool.and_eq_true] at hfields
    exact giveAll_cons hfields.1 h.1 (rest.giveAll_of_givenBy hfields.2 h.2)

/-! ## Fields that are given twice -/

/-- Whether the field of this name has been read. -/
def has : (fields : Fields) → fields.Partial → String → Bool
  | .nil, _, _ => false
  | .cons name _ rest, (v, more), key => if key = name then v.isSome else rest.has more key

theorem has_none (fields : Fields) (key : String) : fields.has fields.none key = false := by
  match fields with
  | .nil => rfl
  | .cons name s rest =>
    by_cases hkey : key = name
    · exact if_pos hkey
    · exact (if_neg hkey).trans (rest.has_none key)

theorem mem_names_of_has (fields : Fields) {read : fields.Partial} {key : String}
    (h : fields.has read key = true) : key ∈ fields.names := by
  match fields, read with
  | .nil, read =>
    rw [has] at h
    contradiction
  | .cons name s rest, (v, more) =>
    rw [has] at h
    rw [names, List.mem_cons]
    by_cases hkey : key = name
    · exact .inl hkey
    · rw [if_neg hkey] at h
      exact .inr (rest.mem_names_of_has h)

/-- **A field that has been read is reported** at its second name, before its
value is looked at. -/
theorem readValue_of_has (fields : Fields) {key : String} {read : fields.Partial}
    (h : fields.has read key = true) (cs : List Char) :
    fields.readValue p depth key read cs = .error (.mismatch (.duplicateField key)) := by
  match fields, read with
  | .nil, _ => simp [has] at h
  | .cons name s rest, (v, more) =>
    rw [has] at h
    by_cases hkey : key = name
    · rw [if_pos hkey] at h
      obtain ⟨w, rfl⟩ := Option.isSome_iff_exists.1 h
      subst hkey
      simp only [readValue, if_true]
    · rw [if_neg hkey] at h
      simp only [readValue, if_neg hkey, rest.readValue_of_has h cs, bind, Except.bind]

/-- A member of a field that has not been read gives it. -/
theorem exists_gives (fields : Fields) (hfields : fields.recordFree = true) {m : Member}
    (h : fields.Admits p depth m) {read : fields.Partial} (hread : fields.has read m.key = false) :
    ∃ more, m.Gives (fields.readValue p depth) read more ∧
      ∀ key ∈ fields.names, fields.has more key = (fields.has read key || key == m.key) := by
  match fields, read with
  | .nil, read =>
    rw [Admits] at h
    exact ⟨read, gives_unknown h read, by simp [names]⟩
  | .cons name s rest, (v, more) =>
    rw [recordFree, Bool.and_eq_true] at hfields
    rw [Admits] at h
    rw [has] at hread
    by_cases hkey : m.key = name
    · rw [if_pos hkey] at h hread
      obtain ⟨w, hw⟩ := h
      obtain rfl : v = Option.none := by simpa using hread
      refine ⟨(some w, more), gives_first hfields.1 hkey hw more, fun key _ => ?_⟩
      by_cases hfirst : key = name
      · simp [has, hfirst, hkey]
      · simp [has, hfirst, hkey]
    · rw [if_neg hkey] at h hread
      obtain ⟨after, hgives, hhas⟩ := rest.exists_gives hfields.2 h hread
      refine ⟨(v, after), gives_others hgives hkey v, fun key hmem => ?_⟩
      by_cases hfirst : key = name
      · subst hfirst
        simp [has, Ne.symm hkey]
      · rw [names, List.mem_cons] at hmem
        simp only [has, if_neg hfirst]
        exact hhas key (hmem.resolve_left hfirst)

/-- How often a field is given, by what has been read and by members. -/
def timesGiven (fields : Fields) (read : fields.Partial) (members : List Member) (key : String) :
    Nat :=
  (fields.has read key).toNat + (members.map (·.key)).count key

/-- What is read of a field once more, the members give once less. -/
theorem timesGiven_of_read (fields : Fields) {read next : fields.Partial} {m : Member}
    {members : List Member} {key : String} (hread : fields.has read m.key = false)
    (hnext : fields.has next key = (fields.has read key || key == m.key)) :
    fields.timesGiven next members key = fields.timesGiven read (m :: members) key := by
  simp only [timesGiven, hnext, List.map_cons, List.count_cons]
  by_cases hm : key = m.key
  · simp only [hm, hread, BEq.rfl, Bool.or_true, Bool.toNat_true, Bool.toNat_false, if_true]
    omega
  · have hbeq : (key == m.key) = false := beq_eq_false_iff_ne.2 hm
    simp [hbeq, Ne.symm hm]

/-- If a field is given once more behind members of the right types, then these
members are taken up to where the first field is given once more. -/
theorem exists_again (fields : Fields) (hfields : fields.recordFree = true) {front : List Member}
    (hfront : ∀ m ∈ front, fields.Admits p depth m) (read : fields.Partial) {again : Member}
    (hkey : again.key ∈ fields.names)
    (h : fields.has read again.key = true ∨ again.key ∈ front.map (·.key)) :
    ∃ first second behind more, front ++ [again] = first ++ second :: behind ∧
      second.key ∈ fields.names ∧ 2 ≤ fields.timesGiven read (front ++ [again]) second.key ∧
      Member.GiveAll (fields.readValue p depth) first read more ∧
      fields.has more second.key = true := by
  induction front generalizing read with
  | nil =>
      obtain hread : fields.has read again.key = true := by simpa using h
      have htimes : 2 ≤ fields.timesGiven read [again] again.key := by simp [timesGiven, hread]
      exact ⟨[], again, [], read, rfl, hkey, htimes, .nil read, hread⟩
  | cons m front ih =>
      rw [List.forall_mem_cons] at hfront
      cases hread : fields.has read m.key with
      | true =>
          have htimes : 2 ≤ fields.timesGiven read (m :: (front ++ [again])) m.key := by
            simp only [timesGiven, hread, List.map_cons, List.count_cons_self, Bool.toNat_true]
            omega
          exact ⟨[], m, front ++ [again], read, rfl, fields.mem_names_of_has hread, htimes,
            .nil read, hread⟩
      | false =>
          obtain ⟨next, hgives, hhas⟩ := fields.exists_gives hfields hfront.1 hread
          have hagain : fields.has next again.key = true ∨ again.key ∈ front.map (·.key) := by
            simp only [List.map_cons, List.mem_cons] at h
            rw [hhas again.key hkey, Bool.or_eq_true, beq_iff_eq, or_assoc]
            exact h
          obtain ⟨first, second, behind, more, hsplit, hname, htwice, hfirst, hmore⟩ :=
            ih hfront.2 next hagain
          rw [fields.timesGiven_of_read hread (hhas second.key hname)] at htwice
          exact ⟨m :: first, second, behind, more, congrArg (m :: ·) hsplit, hname, htwice,
            .cons hgives hfirst, hmore⟩

end Fields

end TraceLog
