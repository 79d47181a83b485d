import TraceLog.Schema.Form

/-!
# TraceLog.Schema.Choice

Types of finitely many values, each written as its name.

`Named` lists the values and names them apart.  `Named.form` reads and writes
a value as its name, and `Named.ofName?` finds the value of a name.
-/

namespace TraceLog

/-- A type of finitely many values with names that tell them apart. -/
class Named (α : Type) where
  all : List α
  name : α → String
  mem_all : ∀ a, a ∈ all
  name_injective : ∀ a b, name a = name b → a = b

namespace Named

variable {α : Type} [Named α]

/-- The names, in order. -/
def names (α : Type) [Named α] : List String := (all (α := α)).map name

/-- The value of a name. -/
def ofName? (s : String) : Option α := all.find? fun a => name a == s

theorem name_mem_names (a : α) : name a ∈ names α := List.mem_map_of_mem (mem_all a)

theorem ofName?_name (a : α) : ofName? (name a) = some a := by
  unfold ofName?
  obtain ⟨b, hb⟩ : ∃ b : α, (all : List α).find? (fun c => name c == name a) = some b := by
    refine Option.isSome_iff_exists.1 (List.find?_isSome.2 ?_)
    exact ⟨a, mem_all a, by simp⟩
  have hname : name b = name a := by simpa using List.find?_some hb
  rw [hb, name_injective b a hname]

theorem isSome_ofName? {s : String} (h : s ∈ names α) : (ofName? (α := α) s).isSome = true := by
  obtain ⟨a, _, rfl⟩ := List.mem_map.1 h
  rw [ofName?_name a]
  rfl

/-- The value of one of the names. -/
def ofName (s : { s : String // s ∈ names α }) : α :=
  (ofName? s.val).get (isSome_ofName? s.property)

theorem ofName_name (a : α) : ofName ⟨name a, name_mem_names a⟩ = a := by
  simp [ofName, ofName?_name]

theorem name_ofName (s : { s : String // s ∈ names α }) : name (ofName s) = s.val := by
  obtain ⟨s, hs⟩ := s
  obtain ⟨a, _, rfl⟩ := List.mem_map.1 hs
  exact congrArg name (ofName_name a)

/-- A value as its name. -/
def form : Form α where
  schema := .choice (names α)
  toVal a := ⟨name a, name_mem_names a⟩
  ofVal := ofName
  ofVal_toVal := ofName_name
  toVal_ofVal s := Subtype.ext (name_ofName s)

end Named

end TraceLog
