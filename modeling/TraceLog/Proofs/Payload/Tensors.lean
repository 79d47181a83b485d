import Mathlib.Algebra.BigOperators.Group.List.Basic
import TraceLog.Payload.Tensor
import TraceLog.Proofs.Payload.Nesting

/-!
# TraceLog.Proofs.Payload.Tensors

Which data make a tensor of a shape.

The elements of a shape are counted dimension by dimension, in 64 bits, and
still the order of the dimensions does not matter: what the count comes to is
the product of all of them, and that alone tells whether data make a tensor, do
not fill the shape, or could not be counted.  What is once a tensor fills its
shape, so normalizing it never leaves it in place.

* `Shape.product_eq_prod` — the product as the library has it;
* `Tensor.of?_eq` — the three outcomes, told apart by the product;
* `Tensor.count?_shape` — a tensor fills its shape;
* `Tensor.outcome_of_product` — all of this together.
-/

namespace TraceLog

namespace Shape

/-- The product of a shape is that of its dimensions as natural numbers. -/
theorem product_eq_prod (shape : Shape) : shape.product = (shape.map UInt64.toNat).prod := by
  induction shape with
  | nil => rfl
  | cons dim dims ih => rw [product, ih, List.map_cons, List.prod_cons]

/-- The order of the dimensions does not matter. -/
theorem product_eq_of_perm {shape other : Shape} (h : shape.Perm other) :
    other.product = shape.product := by
  rw [product_eq_prod, product_eq_prod, (h.map UInt64.toNat).prod_eq]

/-- There is no count exactly if 64 bits cannot hold the product. -/
theorem count?_eq_none_iff {shape : Shape} :
    shape.count? = none ↔ 18446744073709551616 ≤ shape.product := by
  rw [count?_eq]
  split
  · simp only [reduceCtorEq, false_iff]
    omega
  · simp only [true_iff]
    omega

end Shape

namespace Tensor

variable {α : Type}

/-- How an attempt to make a tensor ends, whatever the shape and the data
are. -/
inductive Outcome where
  | made
  | mismatch (expected actual : Nat)
  | overflow
  deriving DecidableEq, Repr

/-- The outcome of an attempt. -/
def outcome : Except ShapeFault (Tensor α) → Outcome
  | .ok _ => .made
  | .error (.mismatch _ expected actual) => .mismatch expected actual
  | .error (.overflow _) => .overflow

/-- **The product decides.**  If it does not fit 64 bits, nothing can be
counted; otherwise the data make a tensor if there are as many of them. -/
theorem of?_eq (shape : Shape) (data : List α) :
    of? shape data =
      if 18446744073709551616 ≤ shape.product then .error (.overflow shape)
      else if shape.product = data.length then .ok ⟨shape, data⟩
      else .error (.mismatch shape shape.product data.length) := by
  rw [of?, Shape.count?_eq]
  by_cases hfits : shape.product < 18446744073709551616
  · rw [if_pos hfits, if_neg (by omega)]
  · rw [if_neg hfits, if_pos (by omega)]

/-- What is made of a shape and data has that shape and those data, and the
data fill the shape. -/
theorem of?_eq_ok {shape : Shape} {data : List α} {t : Tensor α} (h : of? shape data = .ok t) :
    t = ⟨shape, data⟩ ∧ shape.count? = some data.length := by
  rw [of?] at h
  split at h
  · contradiction
  · next expected hcount =>
      split at h
      · next hexpected =>
          cases h
          exact ⟨rfl, hcount.trans (congrArg some hexpected)⟩
      · contradiction

/-- Data make a tensor exactly if there are as many as the product. -/
theorem exists_of?_eq_ok_iff {shape : Shape} {data : List α}
    (hsize : data.length < 18446744073709551616) :
    (∃ t, of? shape data = .ok t) ↔ shape.product = data.length := by
  constructor
  · rintro ⟨t, ht⟩
    exact (Shape.count?_eq_some_iff.1 (of?_eq_ok ht).2).1
  · intro hproduct
    refine ⟨⟨shape, data⟩, ?_⟩
    rw [of?_eq, if_neg (by omega), if_pos hproduct]

/-- The shape overflows exactly if the product does not fit. -/
theorem of?_eq_overflow_iff {shape : Shape} {data : List α} :
    of? shape data = .error (.overflow shape) ↔ 18446744073709551616 ≤ shape.product := by
  rw [of?_eq]
  split
  · next hover => exact ⟨fun _ => hover, fun _ => rfl⟩
  · next hfits =>
      refine ⟨fun h => ?_, fun hover => absurd hover hfits⟩
      split at h <;> cases h

/-- The product is what was expected exactly if it fits and is not what there
is. -/
theorem of?_eq_mismatch_iff {shape : Shape} {data : List α} :
    of? shape data = .error (.mismatch shape shape.product data.length) ↔
      shape.product < 18446744073709551616 ∧ shape.product ≠ data.length := by
  rw [of?_eq]
  split
  · next hover => exact ⟨fun h => (nomatch h), fun h => absurd hover (Nat.not_le.2 h.1)⟩
  · next hfits =>
      split
      · next hequal => exact ⟨fun h => (nomatch h), fun h => absurd hequal h.2⟩
      · next hother => exact ⟨fun _ => ⟨Nat.lt_of_not_le hfits, hother⟩, fun _ => rfl⟩

/-- Shapes of the same product have the same outcome. -/
theorem outcome_congr {shape other : Shape} (h : other.product = shape.product) (data : List α) :
    outcome (of? other data) = outcome (of? shape data) := by
  rw [of?_eq, of?_eq, h]
  split
  · rfl
  · split <;> rfl

/-- Data of one dimension fill it. -/
theorem count?_ofList {data : List α} (hsize : data.length < 18446744073709551616) :
    (ofList data).shape.count? = some data.length := by
  refine Shape.count?_eq_some_iff.2 ⟨?_, hsize⟩
  have hdim : (UInt64.ofNat data.length).toNat = data.length := UInt64.toNat_ofNat_of_lt hsize
  rw [ofList, Shape.product, Shape.product, hdim, Nat.mul_one]

/-- **Every tensor fills its shape**, whichever way it was made. -/
theorem count?_shape {shape : Shape} {data : List α} {t : Tensor α}
    (hsize : data.length < 18446744073709551616)
    (ht : of? shape data = .ok t ∨ t = ofList data) :
    t.data = data ∧ t.shape.count? = some t.data.length := by
  cases ht with
  | inl hmade =>
      obtain ⟨rfl, hcount⟩ := of?_eq_ok hmade
      exact ⟨rfl, hcount⟩
  | inr hlist =>
      subst hlist
      exact ⟨rfl, count?_ofList hsize⟩

/-- A tensor is taken apart when it is normalized. -/
theorem normalize_toPayload {t : Tensor α} (hcount : t.shape.count? = some t.data.length)
    (convert : α → Payload) (handle : Nat) :
    (t.toPayload convert handle).normalize =
      (Payload.nest t.shape (t.data.map fun a => (convert a).normalize)).1 := by
  rw [toPayload, Payload.normalize, List.length_map, if_pos hcount, Payload.normalizeAll_eq_map,
    List.map_map]
  rfl

/-- **Counting is exact.**  The count of a shape is the product of its
dimensions where that fits 64 bits, and there is none where it does not.  Data
make a tensor exactly if there are as many as the product; the shape overflows
exactly if the product does not fit; and otherwise the product is what the
fault says was expected.  So every tensor passes the check that normalizing
makes, and is taken apart; and the dimensions may change places without any
change of the outcome. -/
theorem outcome_of_product (shape : Shape) {data : List α}
    (hsize : data.length < 18446744073709551616) :
    let total := (shape.map UInt64.toNat).prod
    (∀ n, shape.count? = some n ↔ n = total ∧ total < 18446744073709551616) ∧
    (shape.count? = none ↔ 18446744073709551616 ≤ total) ∧
    ((∃ t, of? shape data = .ok t) ↔ total = data.length) ∧
    (of? shape data = .error (.overflow shape) ↔ 18446744073709551616 ≤ total) ∧
    (of? shape data = .error (.mismatch shape total data.length) ↔
      total < 18446744073709551616 ∧ total ≠ data.length) ∧
    (∀ t, of? shape data = .ok t ∨ t = ofList data → ∀ (convert : α → Payload) handle,
      ∃ elements, t.toPayload convert handle = .array handle t.shape elements ∧
        elements = data.map convert ∧ t.shape.count? = some elements.length ∧
        (t.toPayload convert handle).normalize =
          (Payload.nest t.shape (elements.map Payload.normalize)).1) ∧
    ∀ other : Shape, shape.Perm other →
      outcome (of? other data) = outcome (of? shape data) := by
  intro total
  have htotal : shape.product = total := shape.product_eq_prod
  simp only [← htotal]
  refine ⟨?_, Shape.count?_eq_none_iff, exists_of?_eq_ok_iff hsize, of?_eq_overflow_iff,
    of?_eq_mismatch_iff, ?_, ?_⟩
  · intro n
    rw [Shape.count?_eq_some_iff]
    omega
  · intro t ht convert handle
    obtain ⟨hdata, hcount⟩ := count?_shape hsize ht
    refine ⟨t.data.map convert, rfl, by rw [hdata], by rwa [List.length_map], ?_⟩
    rw [normalize_toPayload hcount, List.map_map]
    rfl
  · exact fun other hperm => outcome_congr (Shape.product_eq_of_perm hperm) data

/-- A zero behind dimensions that overflow together: no data fill the shape, in
this order as in the opposite one, and a tensor is made. -/
theorem outcome_of_product_of_zero_behind :
    let shape : Shape := [9223372036854775808, 9223372036854775808, 0]
    ([] : List Int64).length < 18446744073709551616 ∧
      (∃ t, of? shape ([] : List Int64) = .ok t) ∧
      outcome (of? shape.reverse ([] : List Int64)) = .made := by
  intro shape
  have hsize : ([] : List Int64).length < 18446744073709551616 := by decide
  obtain ⟨-, -, hmade, -, -, -, hperm⟩ := outcome_of_product shape hsize
  refine ⟨hsize, hmade.2 (by decide), ?_⟩
  rw [hperm shape.reverse shape.reverse_perm.symm]
  rfl

end Tensor

end TraceLog
