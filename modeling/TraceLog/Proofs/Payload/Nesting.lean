import TraceLog.Payload.Normalize
import TraceLog.Proofs.Payload.Counting

/-!
# TraceLog.Proofs.Payload.Nesting

What a nested list is made of.

`Payload.nest` consumes as many elements as the dimensions call for.  Whatever
holds of a list exactly if it holds of its items therefore holds of the nested
list exactly if it holds of the elements that went into it.

* `Payload.nest_snd` — the elements that are left over;
* `Payload.nest_iff` — from the nested list to its elements;
* `Payload.flatMap_nest` — what is gathered from the nested list.
-/

namespace TraceLog

namespace Payload

/-! ## Repeated steps -/

section

variable {α β : Type} {next : List α → β × List α} {width : Nat}

/-- Steps that consume so many elements each consume as many times that. -/
theorem times_snd (hnext : ∀ elements, (next elements).2 = elements.drop width) (n : Nat)
    (elements : List α) : (times next n elements).2 = elements.drop (n * width) := by
  induction n generalizing elements with
  | zero => rw [times, Nat.zero_mul, List.drop_zero]
  | succ n ih =>
      have hwidth : (n + 1) * width = width + n * width := by rw [Nat.succ_mul, Nat.add_comm]
      rw [hwidth, ← List.drop_drop, ← hnext, ← ih]
      rfl

/-- What holds of a result exactly if it holds of the elements that were
consumed for it holds of all results exactly if it holds of all of them. -/
theorem forall_mem_times {P : α → Prop} {Q : β → Prop}
    (hnext : ∀ elements, (next elements).2 = elements.drop width)
    (hresult : ∀ elements, Q (next elements).1 ↔ ∀ e ∈ elements.take width, P e) (n : Nat)
    (elements : List α) :
    (∀ b ∈ (times next n elements).1, Q b) ↔ ∀ e ∈ elements.take (n * width), P e := by
  induction n generalizing elements with
  | zero => simp [times]
  | succ n ih =>
      have hwidth : (n + 1) * width = width + n * width := by rw [Nat.succ_mul, Nat.add_comm]
      have hrest := ih (next elements).2
      rw [hnext] at hrest
      rw [hwidth, List.take_add, List.forall_mem_append, ← hresult, ← hrest, ← hnext]
      simp [times]

/-- Steps that each keep what their elements come to keep it together. -/
theorem flatMap_times {γ : Type} {f : α → List γ} {g : β → List γ}
    (hrest : ∀ elements, (next elements).2 = elements.drop width)
    (hnext : ∀ elements, width ≤ elements.length →
      g (next elements).1 = (elements.take width).flatMap f)
    (n : Nat) {elements : List α} (hlength : n * width ≤ elements.length) :
    (times next n elements).1.flatMap g = (elements.take (n * width)).flatMap f := by
  induction n generalizing elements with
  | zero => simp [times]
  | succ n ih =>
      have hwidth : (n + 1) * width = width + n * width := by rw [Nat.succ_mul, Nat.add_comm]
      rw [hwidth] at hlength ⊢
      have hothers := ih (show n * width ≤ (next elements).2.length by
        rw [hrest, List.length_drop]; omega)
      rw [hrest] at hothers
      rw [List.take_add, List.flatMap_append, ← hothers, ← hnext elements (by omega), ← hrest]
      simp [times]

end

/-! ## Nested lists -/

/-- Building a nested list leaves what its dimensions do not call for. -/
theorem nest_snd (shape : Shape) (elements : List Payload) :
    (nest shape elements).2 = elements.drop shape.product := by
  induction shape generalizing elements with
  | nil => cases elements <;> rfl
  | cons dim dims ih =>
      rw [Shape.product, ← times_snd ih]
      rfl

/-- **A nested list holds the elements in front and nothing else.** -/
theorem nest_iff {P : Payload → Prop} (hnull : P .null)
    (hlist : ∀ items, P (.list items) ↔ ∀ item ∈ items, P item) (shape : Shape)
    (elements : List Payload) :
    P (nest shape elements).1 ↔ ∀ e ∈ elements.take shape.product, P e := by
  induction shape generalizing elements with
  | nil =>
      cases elements with
      | nil => simpa [nest] using hnull
      | cons element rest => simp [nest, Shape.product]
  | cons dim dims ih =>
      rw [Shape.product, ← forall_mem_times (nest_snd dims) ih, ← hlist]
      rfl

/-- **What is gathered from a nested list is gathered from its elements in
turn**, if what is gathered from a list is gathered from its items in turn. -/
theorem flatMap_nest {γ : Type} {gather : Payload → List γ}
    (hlist : ∀ items, gather (.list items) = items.flatMap gather) (shape : Shape)
    {elements : List Payload} (hlength : shape.product ≤ elements.length) :
    gather (nest shape elements).1 = (elements.take shape.product).flatMap gather := by
  induction shape generalizing elements with
  | nil =>
      cases elements with
      | nil => contradiction
      | cons element rest => simp [nest, Shape.product]
  | cons dim dims ih =>
      rw [Shape.product, ← flatMap_times (nest_snd dims) (fun elements => ih) dim.toNat hlength,
        ← hlist]
      rfl

/-! ## Normalizing in place -/

/-- Normalizing items is normalizing each of them. -/
theorem normalizeAll_eq_map (items : List Payload) : normalizeAll items = items.map normalize := by
  induction items with
  | nil => rfl
  | cons item items ih => rw [normalizeAll, ih, List.map_cons]

/-- Normalizing entries is normalizing the value of each of them. -/
theorem normalizeValues_eq_map (entries : List (String × Payload)) :
    normalizeValues entries = entries.map fun entry => (entry.1, entry.2.normalize) := by
  induction entries with
  | nil => rfl
  | cons entry entries ih =>
      obtain ⟨key, value⟩ := entry
      rw [normalizeValues, ih, List.map_cons]

/-- An array that fills its shape becomes a nested list of all its elements. -/
theorem normalize_array_iff {P : Payload → Prop} (hnull : P .null)
    (hlist : ∀ items, P (.list items) ↔ ∀ item ∈ items, P item) (handle : Nat) {shape : Shape}
    {elements : List Payload} (hcount : shape.count? = some elements.length) :
    P (normalize (.array handle shape elements)) ↔ ∀ e ∈ elements, P e.normalize := by
  have hproduct : shape.product = elements.length := (Shape.count?_eq_some_iff.1 hcount).1
  rw [normalize, if_pos hcount, nest_iff hnull hlist, normalizeAll_eq_map, hproduct,
    List.take_of_length_le (Nat.le_of_eq (List.length_map _)), List.forall_mem_map]

/-- What is gathered from an array that fills its shape, once it is a nested
list, is gathered from its elements in turn. -/
theorem flatMap_normalize_array {γ : Type} {gather : Payload → List γ}
    (hlist : ∀ items, gather (.list items) = items.flatMap gather) (handle : Nat) {shape : Shape}
    {elements : List Payload} (hcount : shape.count? = some elements.length) :
    gather (normalize (.array handle shape elements)) =
      elements.flatMap fun e => gather e.normalize := by
  have hproduct : shape.product = (elements.map normalize).length := by
    rw [List.length_map]
    exact (Shape.count?_eq_some_iff.1 hcount).1
  rw [normalize, if_pos hcount, normalizeAll_eq_map,
    flatMap_nest hlist shape (Nat.le_of_eq hproduct), hproduct, List.take_length, List.flatMap_map]

end Payload

end TraceLog
