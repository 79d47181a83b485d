import Mathlib.Algebra.BigOperators.Group.List.Lemmas
import TraceLog.Proofs.Payload.Idempotence
import TraceLog.Proofs.Payload.Tensors

/-!
# TraceLog.Proofs.Payload.Lists

How long the lists of a normalized array get.

An array that has elements and fills its shape asks for no list that is longer
than its elements are many, so whatever is in memory can be normalized.  Only an
array without elements may ask for more: a zero among the dimensions makes the
product zero, and those in front of it can be as large as they like.

* `Payload.lengths` — the lengths of nested lists;
* `Payload.forall_asked_le_iff` — the lists that a shape asks for;
* `Payload.met` — the arrays that normalizing meets;
* `Payload.normalize?_eq_none_iff_empty` — when normalizing comes to no end.
-/

namespace TraceLog

namespace Shape

variable {shape : Shape} {dim : UInt64}

/-- Without a zero no dimension is larger than the product. -/
theorem toNat_le_product (hdim : dim ∈ shape) (hpos : 0 < shape.product) :
    dim.toNat ≤ shape.product := by
  refine Nat.le_of_dvd hpos ?_
  rw [product_eq_prod]
  exact List.dvd_prod (List.mem_map_of_mem hdim)

end Shape

namespace Payload

/-! ## Lists of a shape -/

/-- The lengths of the lists in each other, down to a depth. -/
def lengths : Nat → Payload → List Nat
  | depth + 1, .list items => items.length :: items.flatMap (lengths depth)
  | _, _ => []

/-- The lengths of all lists that the nested list of a shape is made of. -/
def asked (shape : Shape) (elements : List Payload) : List Nat :=
  lengths shape.length (nest shape elements).1

/-- **The lists that a shape asks for** have the lengths of its dimensions in
front of the first zero; behind a zero no list is asked for, and for the zero
itself an empty one. -/
theorem forall_asked_le_iff (shape : Shape) (elements : List Payload) (bound : Nat) :
    (∀ n ∈ asked shape elements, n ≤ bound) ↔
      ∀ dim ∈ shape.takeWhile (· != 0), dim.toNat ≤ bound := by
  unfold asked
  induction shape generalizing elements with
  | nil => simp [lengths]
  | cons dim dims ih =>
      have hinner : ∀ item ∈ (times (nest dims) dim.toNat elements).1,
          ((∀ n ∈ lengths dims.length item, n ≤ bound) ↔
            ∀ dim ∈ dims.takeWhile (· != 0), dim.toNat ≤ bound) := fun _ hitem =>
        of_mem_times (Q := fun item => (∀ n ∈ lengths dims.length item, n ≤ bound) ↔ _) ih hitem
      have hlength : (times (nest dims) dim.toNat elements).1.length = dim.toNat :=
        length_times dim.toNat elements
      by_cases hzero : dim = 0
      · subst hzero
        simp [lengths, nest, times]
      · have hne : (times (nest dims) dim.toNat elements).1 ≠ [] := by
          rw [← List.length_pos_iff, hlength, Nat.pos_iff_ne_zero]
          exact fun h => hzero (UInt64.toNat_inj.1 h)
        obtain ⟨first, hfirst⟩ := List.exists_mem_of_ne_nil _ hne
        have htake : (dim :: dims).takeWhile (· != 0) = dim :: dims.takeWhile (· != 0) := by
          simp [hzero]
        rw [htake, List.forall_mem_cons, ← hinner first hfirst]
        simp only [nest, List.length_cons, lengths, List.forall_mem_cons, hlength,
          List.forall_mem_flatMap]
        refine and_congr_right fun _ => ⟨fun h => h first hfirst, fun h item hitem => ?_⟩
        exact (hinner item hitem).2 ((hinner first hfirst).1 h)

/-- The lists of a shape can be built exactly if none of them is too long. -/
theorem buildable_iff_asked (shape : Shape) (elements : List Payload) :
    shape.buildable = true ↔ ∀ n ∈ asked shape elements, n ≤ Shape.maxEntries := by
  rw [Shape.buildable_iff, forall_asked_le_iff]

/-- An array with elements that fill its shape asks for no list longer than
they are many. -/
theorem asked_le_length {shape : Shape} {elements : List Payload}
    (hproduct : shape.product = elements.length) (hne : elements ≠ []) (others : List Payload) :
    ∀ n ∈ asked shape others, n ≤ elements.length := by
  have hpos : 0 < shape.product := hproduct ▸ List.length_pos_iff.2 hne
  rw [forall_asked_le_iff, ← hproduct]
  exact fun dim hdim => Shape.toNat_le_product (List.takeWhile_subset _ hdim) hpos

/-! ## Arrays that normalizing meets -/

mutual

/-- The arrays that normalizing meets, with their elements: those in the tree,
and those among the elements of an array that fills its shape. -/
def met : Payload → List (Shape × List Payload)
  | .list items => metInItems items
  | .map entries => metInValues entries
  | .array _ shape elements =>
    (shape, elements) :: if shape.count? = some elements.length then metInItems elements else []
  | .null | .bool _ | .int _ | .uint _ | .float _ | .str _ => []

/-- `met` of the items in turn. -/
def metInItems : List Payload → List (Shape × List Payload)
  | [] => []
  | item :: rest => item.met ++ metInItems rest

/-- `met` of the values of the entries in turn. -/
def metInValues : List (String × Payload) → List (Shape × List Payload)
  | [] => []
  | (_, value) :: rest => value.met ++ metInValues rest

end

/-- The arrays that fill their shapes can be built. -/
def MetBuildable (arrays : List (Shape × List Payload)) : Prop :=
  ∀ a ∈ arrays, a.1.count? = some a.2.length → a.1.buildable = true

theorem metBuildable_append_iff {arrays more : List (Shape × List Payload)} :
    MetBuildable (arrays ++ more) ↔ MetBuildable arrays ∧ MetBuildable more :=
  List.forall_mem_append

mutual

/-- Normalizing builds the lists of the arrays that it meets, and no others. -/
theorem buildable_iff_met (p : Payload) : p.buildable = true ↔ MetBuildable p.met := by
  match p with
  | .null | .bool _ | .int _ | .uint _ | .float _ | .str _ =>
      simp [buildable, met, MetBuildable]
  | .list items =>
      rw [buildable, met]
      exact allBuildable_iff_met items
  | .map entries =>
      rw [buildable, met]
      exact valuesBuildable_iff_met entries
  | .array handle shape elements =>
      rw [buildable, met, MetBuildable, List.forall_mem_cons]
      by_cases hcount : shape.count? = some elements.length
      · rw [if_pos hcount, if_pos hcount, Bool.and_eq_true, allBuildable_iff_met elements]
        exact and_congr_left fun _ => ⟨fun h _ => h, fun h => h hcount⟩
      · rw [if_neg hcount, if_neg hcount]
        simp [hcount]

/-- `buildable_iff_met` for the items. -/
theorem allBuildable_iff_met (items : List Payload) :
    allBuildable items = true ↔ MetBuildable (metInItems items) := by
  match items with
  | [] => simp [allBuildable, metInItems, MetBuildable]
  | item :: rest =>
      rw [allBuildable, metInItems, Bool.and_eq_true, metBuildable_append_iff,
        buildable_iff_met item, allBuildable_iff_met rest]

/-- `buildable_iff_met` for the values of the entries. -/
theorem valuesBuildable_iff_met (entries : List (String × Payload)) :
    valuesBuildable entries = true ↔ MetBuildable (metInValues entries) := by
  match entries with
  | [] => simp [valuesBuildable, metInValues, MetBuildable]
  | (_, value) :: rest =>
      rw [valuesBuildable, metInValues, Bool.and_eq_true, metBuildable_append_iff,
        buildable_iff_met value, valuesBuildable_iff_met rest]

end

/-! ## Lists that are too long -/

/-- **Normalizing comes to no end only for arrays without elements.**  Given
that the elements of all arrays are in memory, it comes to no end exactly if it
meets an array without elements that fills its shape and asks for a list that is
too long.  The lists that an array asks for have the lengths of its dimensions
in front of the first zero, and where there are elements none of them is longer
than these are many. -/
theorem normalize?_eq_none_iff_empty (p : Payload)
    (hmemory : ∀ a ∈ p.met, a.2.length ≤ Shape.maxEntries) :
    (p.normalize? = none ↔ ∃ shape, (shape, []) ∈ p.met ∧ shape.product = 0 ∧
      ∃ n ∈ asked shape [], Shape.maxEntries < n) ∧
    ∀ shape elements, (shape, elements) ∈ p.met → shape.product = elements.length →
      (∀ bound, (∀ n ∈ asked shape (elements.map normalize), n ≤ bound) ↔
        ∀ dim ∈ shape.takeWhile (· != 0), dim.toNat ≤ bound) ∧
      (elements ≠ [] → ∀ n ∈ asked shape (elements.map normalize), n ≤ elements.length) := by
  refine ⟨?_, fun shape elements _ hproduct => ⟨forall_asked_le_iff shape _, fun hne => ?_⟩⟩
  · rw [normalize?_eq_none_iff, ← Bool.not_eq_true, buildable_iff_met]
    constructor
    · intro hnot
      simp only [MetBuildable, not_forall] at hnot
      obtain ⟨⟨shape, elements⟩, hmet, hcount, hbuild⟩ := hnot
      have hproduct : shape.product = elements.length := (Shape.count?_eq_some_iff.1 hcount).1
      -- Elements in memory would bound the lists, so there are none.
      have hempty : elements = [] := by
        by_contra hne
        refine hbuild ((buildable_iff_asked shape []).2 fun n hn => ?_)
        exact Nat.le_trans (asked_le_length hproduct hne [] n hn) (hmemory _ hmet)
      subst hempty
      rw [buildable_iff_asked shape []] at hbuild
      simp only [not_forall, exists_prop, Nat.not_le] at hbuild
      exact ⟨shape, hmet, hproduct, hbuild⟩
    · rintro ⟨shape, hmet, hproduct, n, hn, hlong⟩ hall
      have hcount : shape.count? = some ([] : List Payload).length :=
        Shape.count?_eq_some_iff.2 ⟨hproduct, by decide⟩
      have hshort := (buildable_iff_asked shape []).1 (hall _ hmet hcount) n hn
      omega
  · exact asked_le_length hproduct hne _

/-- An array of two elements, of which one is an array of three empty rows: no
list of the outer array is longer than two, and all lists can be built. -/
theorem normalize?_eq_none_iff_empty_of_empty_rows :
    let elements : List Payload := [.array 1 [3, 0] [], .null]
    let p : Payload := .array 0 [1, 2] elements
    (∀ a ∈ p.met, a.2.length ≤ Shape.maxEntries) ∧ p.normalize? ≠ none ∧
      ∀ n ∈ asked [1, 2] (elements.map normalize), n ≤ elements.length := by
  intro elements p
  have hmemory : ∀ a ∈ p.met, a.2.length ≤ Shape.maxEntries := by decide +kernel
  obtain ⟨hnone, hlists⟩ := normalize?_eq_none_iff_empty p hmemory
  refine ⟨hmemory, ?_, (hlists [1, 2] elements (.head _) rfl).2 (List.cons_ne_nil _ _)⟩
  rw [ne_eq, hnone]
  rintro ⟨shape, hmet, -, n, hn, hlong⟩
  have hshape : ∀ a ∈ p.met, a.2.isEmpty = true → a.1 = [3, 0] := by decide +kernel
  obtain rfl : shape = [3, 0] := hshape _ hmet rfl
  have hshort : ∀ n ∈ asked [3, 0] [], n ≤ Shape.maxEntries := by decide +kernel
  exact absurd hlong (Nat.not_lt.2 (hshort n hn))

/-- **A tensor without elements may ask for too much.**  Its shape calls for no
element, so it is one, and for a list of `2 ^ 64 - 1` empty rows; a list has
`2 ^ 63 - 1` entries at most. -/
theorem normalize?_eq_none_of_empty_tensor :
    let t : Tensor Int64 := ⟨[18446744073709551615, 0], []⟩
    Tensor.of? [18446744073709551615, 0] [] = .ok t ∧
      (∃ n ∈ asked t.shape [], 9223372036854775807 < n) ∧
      (t.toPayload .int 0).normalize? = none := by
  intro t
  refine ⟨rfl, ?_, rfl⟩
  have hlong : ¬∀ n ∈ asked t.shape [], n ≤ 9223372036854775807 := by
    rw [forall_asked_le_iff]
    exact fun hall => absurd (hall 18446744073709551615 (.head _)) (by decide)
  simpa only [not_forall, exists_prop, Nat.not_le] using hlong

end Payload

end TraceLog
