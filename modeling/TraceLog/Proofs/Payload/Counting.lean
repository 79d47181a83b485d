import TraceLog.Payload.Shape

/-!
# TraceLog.Proofs.Payload.Counting

Counting the elements of a shape in 64 bits.

`Shape.count?` gives up at the first partial product that does not fit, and
looks for a zero before it multiplies anything.  Without a zero the partial
products only grow, so it gives up exactly if the whole product does not fit.

* `Shape.count?_eq` — the count is the product, wherever that fits.
-/

namespace TraceLog

namespace Shape

/-- A product is zero exactly if one of the dimensions is. -/
theorem product_eq_zero_iff {shape : Shape} : shape.product = 0 ↔ (0 : UInt64) ∈ shape := by
  induction shape with
  | nil => simp [product]
  | cons dim dims ih =>
      have hdim : dim.toNat = 0 ↔ 0 = dim := by
        rw [eq_comm (a := 0), ← UInt64.toNat_inj]
        rfl
      rw [product, Nat.mul_eq_zero, ih, hdim, List.mem_cons]

/-- Without a zero, the partial products fit if the whole product does. -/
theorem countFrom?_eq (count : Nat) (shape : Shape) (hcount : 0 < count)
    (hfits : count < 18446744073709551616) (hzero : (0 : UInt64) ∉ shape) :
    countFrom? count shape =
      if count * shape.product < 18446744073709551616 then some (count * shape.product)
      else none := by
  induction shape generalizing count with
  | nil => rw [countFrom?, product, Nat.mul_one, if_pos hfits]
  | cons dim dims ih =>
      rw [List.mem_cons, not_or] at hzero
      have hdim : 0 < dim.toNat := by
        rw [Nat.pos_iff_ne_zero]
        intro h0
        exact hzero.1 (UInt64.toNat_inj.1 h0.symm)
      have hdims : 0 < product dims := by
        rw [Nat.pos_iff_ne_zero]
        exact fun h0 => hzero.2 (product_eq_zero_iff.1 h0)
      rw [product, ← Nat.mul_assoc, countFrom?, times?]
      by_cases hpartial : count * dim.toNat < 18446744073709551616
      · rw [if_pos hpartial]
        exact ih _ (Nat.mul_pos hcount hdim) hpartial hzero.2
      · have hle : count * dim.toNat ≤ count * dim.toNat * product dims :=
          Nat.le_mul_of_pos_right _ hdims
        rw [if_neg hpartial, if_neg (by omega)]

/-- The count is the product, and there is none exactly if that does not fit
64 bits. -/
theorem count?_eq (shape : Shape) :
    shape.count? = if shape.product < 18446744073709551616 then some shape.product else none := by
  rw [count?]
  by_cases hzero : (0 : UInt64) ∈ shape
  · rw [if_pos (List.contains_iff_mem.2 hzero), product_eq_zero_iff.2 hzero]
    rfl
  · rw [if_neg fun h => hzero (List.contains_iff_mem.1 h), countFrom?_eq 1 shape (by omega)
      (by omega) hzero, Nat.one_mul]

/-- An array fills its shape if its length is the product of the dimensions.
Lengths are numbers of 64 bits. -/
theorem count?_eq_some_iff {shape : Shape} {n : Nat} :
    shape.count? = some n ↔ shape.product = n ∧ n < 18446744073709551616 := by
  rw [count?_eq]
  split
  · rw [Option.some.injEq]
    omega
  · simp only [reduceCtorEq, false_iff]
    omega

end Shape

end TraceLog
