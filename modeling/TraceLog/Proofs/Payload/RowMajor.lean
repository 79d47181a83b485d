import Mathlib.Data.List.Forall2
import TraceLog.Proofs.Payload.Nesting

/-!
# TraceLog.Proofs.Payload.RowMajor

Where the elements of an array stand once it is normalized.

The elements of an array come in row-major order: the last number of an index
varies fastest.  The nested list of a shape is as deep as there are dimensions,
and what stands at an index is the element at the position of the index.

* `Shape.position` — the position of an index, computed from the outside in;
* `Shape.existsUnique_position` — every element has one index;
* `Payload.HasShape` — nested lists of the lengths of a shape;
* `Payload.nest?` — nesting that gives up where the elements run out;
* `Payload.normalize?_array_row_major` — what becomes of an array.
-/

namespace TraceLog

namespace Shape

/-! ## Positions -/

/-- The position of an index in the rows behind so many others. -/
def positionFrom (rows : Nat) : Shape → List Nat → Nat
  | dim :: dims, i :: index => positionFrom (rows * dim.toNat + i) dims index
  | _, _ => rows

/-- The position of an index in row-major order: `((i * e + j) * f + …) * g + k`
for an index `i, j, …, k` and dimensions `d, e, f, …, g`. -/
def position (shape : Shape) (index : List Nat) : Nat := positionFrom 0 shape index

/-- The index has a number for each dimension, below that dimension. -/
def Covers (shape : Shape) (index : List Nat) : Prop :=
  List.Forall₂ (fun i dim => i < dim.toNat) index shape

variable {dim : UInt64} {dims shape : Shape} {index : List Nat} {i n : Nat}

theorem covers_nil_iff : Covers [] index ↔ index = [] := by
  simp [Covers]

theorem covers_cons_iff : Covers (dim :: dims) index ↔
    ∃ i rest, i < dim.toNat ∧ Covers dims rest ∧ index = i :: rest := by
  simp [Covers, List.forall₂_cons_right_iff]

/-- The rows in front count as whole products of the dimensions. -/
theorem positionFrom_eq (h : shape.Covers index) (rows : Nat) :
    positionFrom rows shape index = rows * shape.product + shape.position index := by
  induction shape generalizing rows index with
  | nil => simp [positionFrom, position, product]
  | cons dim dims ih =>
      obtain ⟨i, rest, -, hrest, rfl⟩ := covers_cons_iff.1 h
      simp only [positionFrom, position, product]
      rw [ih hrest, ih hrest (0 * dim.toNat + i), Nat.zero_mul, Nat.zero_add, Nat.add_mul,
        Nat.mul_assoc, Nat.add_assoc]

theorem position_cons (h : dims.Covers index) :
    position (dim :: dims) (i :: index) = i * dims.product + dims.position index := by
  simp only [position, positionFrom]
  rw [positionFrom_eq h, Nat.zero_mul, Nat.zero_add, position]

/-- The position of an index is below the number of elements. -/
theorem position_lt (h : shape.Covers index) : shape.position index < shape.product := by
  induction shape generalizing index with
  | nil => simp [position, positionFrom, product]
  | cons dim dims ih =>
      obtain ⟨i, rest, hi, hrest, rfl⟩ := covers_cons_iff.1 h
      rw [position_cons hrest, product]
      calc i * product dims + position dims rest
          < i * product dims + product dims := Nat.add_lt_add_left (ih hrest) _
        _ = (i + 1) * product dims := by rw [Nat.succ_mul]
        _ ≤ dim.toNat * product dims := Nat.mul_le_mul_right _ hi

/-- **Every element has one index.** -/
theorem existsUnique_position (h : n < shape.product) :
    ∃! index, shape.Covers index ∧ shape.position index = n := by
  induction shape generalizing n with
  | nil =>
      have hn : n = 0 := by simpa [product] using h
      refine ⟨[], ⟨covers_nil_iff.2 rfl, hn.symm⟩, ?_⟩
      rintro index ⟨hindex, -⟩
      exact covers_nil_iff.1 hindex
  | cons dim dims ih =>
      rw [product] at h
      have hwidth : 0 < product dims := Nat.pos_of_mul_pos_left (Nat.zero_lt_of_lt h)
      have hrow : n / product dims < dim.toNat := (Nat.div_lt_iff_lt_mul hwidth).2 h
      obtain ⟨rest, ⟨hrest, hposition⟩, hunique⟩ := ih (Nat.mod_lt n hwidth)
      refine ⟨n / product dims :: rest, ⟨covers_cons_iff.2 ⟨_, _, hrow, hrest, rfl⟩, ?_⟩, ?_⟩
      · rw [position_cons hrest, hposition, Nat.div_add_mod']
      · rintro index ⟨hindex, rfl⟩
        obtain ⟨i, others, -, hothers, rfl⟩ := covers_cons_iff.1 hindex
        have hlt := position_lt hothers
        rw [position_cons hothers] at hunique ⊢
        -- What is left of the position after whole rows is that of the other numbers.
        rw [Nat.mul_comm i, Nat.mul_add_div hwidth, Nat.div_eq_of_lt hlt, Nat.add_zero,
          hunique others ⟨hothers, by rw [Nat.mul_comm i, Nat.mul_add_mod, Nat.mod_eq_of_lt hlt]⟩]

/-! ## Lists that can exist -/

/-- The lists of a shape can exist exactly if no dimension is too large, apart
from those behind a zero, for which no list is built. -/
theorem buildable_iff :
    shape.buildable = true ↔ ∀ dim ∈ shape.takeWhile (· != 0), dim.toNat ≤ maxEntries := by
  induction shape with
  | nil => simp [buildable]
  | cons dim dims ih =>
      by_cases hzero : dim = 0
      · simp [buildable, hzero]
      · simp [buildable, hzero, ih]

end Shape

namespace Payload

variable {α β : Type}

/-! ## Nested lists -/

/-- Lists in each other, one for every dimension, each of the length of its
dimension. -/
def HasShape : Shape → Payload → Prop
  | [], _ => True
  | dim :: dims, p =>
    ∃ items, p = .list items ∧ items.length = dim.toNat ∧ ∀ item ∈ items, HasShape dims item

/-- What stands at an index of nested lists. -/
def element? : Payload → List Nat → Option Payload
  | p, [] => some p
  | .list items, i :: index => items[i]?.bind (element? · index)
  | _, _ :: _ => none

/-- What stands at a depth of nested lists, in order. -/
def leaves : Nat → Payload → List Payload
  | 0, p => [p]
  | depth + 1, .list items => items.flatMap (leaves depth)
  | _ + 1, _ => []

/-- `times` for steps that may give up. -/
def times? (next : List α → Option (β × List α)) : Nat → List α → Option (List β × List α)
  | 0, elements => some ([], elements)
  | n + 1, elements => do
    let (first, elements) ← next elements
    let (rest, elements) ← times? next n elements
    some (first :: rest, elements)

/-- `nest` that gives up where the elements run out. -/
def nest? : Shape → List Payload → Option (Payload × List Payload)
  | [], [] => none
  | [], element :: rest => some (element, rest)
  | dim :: dims, elements => do
    let (items, rest) ← times? (nest? dims) dim.toNat elements
    some (.list items, rest)

section

variable {next : List α → β × List α} {width : Nat}

/-- So many steps give so many results. -/
theorem length_times (n : Nat) (elements : List α) : (times next n elements).1.length = n := by
  induction n generalizing elements with
  | zero => rfl
  | succ n ih => simp [times, ih]

/-- Each step works on what those before it left over. -/
theorem getElem?_times (hnext : ∀ elements, (next elements).2 = elements.drop width) {n i : Nat}
    (hi : i < n) (elements : List α) :
    (times next n elements).1[i]? = some (next (elements.drop (i * width))).1 := by
  induction n generalizing i elements with
  | zero => omega
  | succ n ih =>
      cases i with
      | zero => simp [times]
      | succ i =>
          have hwidth : (i + 1) * width = width + i * width := by rw [Nat.succ_mul, Nat.add_comm]
          have hrest := ih (Nat.lt_of_succ_lt_succ hi) (next elements).2
          rw [hnext, List.drop_drop, ← hwidth] at hrest
          simpa [times, hnext] using hrest

/-- What every step gives, all of them give. -/
theorem of_mem_times {Q : β → Prop} (hnext : ∀ elements, Q (next elements).1) {n : Nat}
    {elements : List α} {b : β} (hb : b ∈ (times next n elements).1) : Q b := by
  induction n generalizing elements with
  | zero => simp [times] at hb
  | succ n ih =>
      simp only [times, List.mem_cons] at hb
      cases hb with
      | inl hfirst => exact hfirst ▸ hnext elements
      | inr hothers => exact ih hothers

/-- Steps that do not give up while there are elements for them do not give up
together. -/
theorem times?_eq_some {next? : List α → Option (β × List α)}
    (hrest : ∀ elements, (next elements).2 = elements.drop width)
    (hnext : ∀ elements, width ≤ elements.length → next? elements = some (next elements)) (n : Nat)
    {elements : List α} (hlength : n * width ≤ elements.length) :
    times? next? n elements = some (times next n elements) := by
  induction n generalizing elements with
  | zero => rfl
  | succ n ih =>
      rw [Nat.succ_mul] at hlength
      have hothers := ih (show n * width ≤ (next elements).2.length by
        rw [hrest, List.length_drop]; omega)
      simp [times?, times, hnext elements (by omega), hothers]

end

/-- Nesting does not run out of elements if there are as many as the dimensions
call for. -/
theorem nest?_eq_some (shape : Shape) {elements : List Payload}
    (hlength : shape.product ≤ elements.length) :
    nest? shape elements = some (nest shape elements) := by
  induction shape generalizing elements with
  | nil =>
      cases elements with
      | nil => contradiction
      | cons element rest => rfl
  | cons dim dims ih =>
      have hitems := times?_eq_some (nest_snd dims) (fun _ => ih) dim.toNat hlength
      simp [nest?, nest, hitems]

/-- A nested list has the shape it was built for. -/
theorem hasShape_nest (shape : Shape) (elements : List Payload) :
    HasShape shape (nest shape elements).1 := by
  induction shape generalizing elements with
  | nil => trivial
  | cons dim dims ih => exact ⟨_, rfl, length_times _ _, fun _ => of_mem_times ih⟩

/-- **What stands at an index is the element at its position.** -/
theorem element?_nest {shape : Shape} {index : List Nat} (h : shape.Covers index)
    {elements : List Payload} (hlength : shape.product ≤ elements.length) :
    (nest shape elements).1.element? index = elements[shape.position index]? := by
  induction shape generalizing index elements with
  | nil =>
      rw [Shape.covers_nil_iff.1 h]
      cases elements with
      | nil => contradiction
      | cons element rest => rfl
  | cons dim dims ih =>
      obtain ⟨i, rest, hi, hrest, rfl⟩ := Shape.covers_cons_iff.1 h
      have hitem := getElem?_times (nest_snd dims) hi elements
      have hroom : Shape.product dims ≤ (elements.drop (i * Shape.product dims)).length := by
        have hrows : (i + 1) * Shape.product dims ≤ dim.toNat * Shape.product dims :=
          Nat.mul_le_mul_right _ hi
        rw [Shape.product] at hlength
        rw [Nat.succ_mul] at hrows
        rw [List.length_drop]
        omega
      simp only [nest, element?, hitem, Option.bind_some]
      rw [ih hrest hroom, List.getElem?_drop, Shape.position_cons hrest]

/-- The leaves of a nested list are the elements that went into it. -/
theorem leaves_nest (shape : Shape) {elements : List Payload}
    (hlength : shape.product ≤ elements.length) :
    leaves shape.length (nest shape elements).1 = elements.take shape.product := by
  induction shape generalizing elements with
  | nil =>
      cases elements with
      | nil => contradiction
      | cons element rest => rfl
  | cons dim dims ih =>
      have hitems := flatMap_times (nest_snd dims) (f := fun e => [e]) (g := leaves dims.length)
        (fun elements hroom => by rw [ih hroom, List.flatMap_singleton']) dim.toNat hlength
      rw [List.flatMap_singleton'] at hitems
      exact hitems

/-! ## Normalized arrays -/

theorem allBuildable_iff {items : List Payload} :
    allBuildable items = true ↔ ∀ item ∈ items, item.buildable = true := by
  induction items with
  | nil => simp [allBuildable]
  | cons item items ih => simp [allBuildable, ih]

theorem normalize?_eq_none_iff {p : Payload} : p.normalize? = none ↔ p.buildable = false := by
  simp [normalize?]

theorem normalize?_of_buildable {p : Payload} (h : p.buildable = true) :
    p.normalize? = some p.normalize := by
  simp [normalize?, h]

/-- **What becomes of an array that fills its shape.**  It comes to no end
exactly if a list is asked for that is too long, by the array itself or by one
of its elements.  Otherwise it becomes nested lists of its shape, and at an
index stands what becomes of the element at the position of the index.  Every
element has one index, nesting takes all of them and never runs out, and the
leaves are what becomes of the elements, in order. -/
theorem normalize?_array_row_major (handle : Nat) {shape : Shape} {elements : List Payload}
    (hcount : shape.product = elements.length) (hsize : elements.length < 18446744073709551616) :
    ((array handle shape elements).normalize? = none ↔
      (∃ dim ∈ shape.takeWhile (· != 0), Shape.maxEntries < dim.toNat) ∨
        ∃ e ∈ elements, e.normalize? = none) ∧
    ∀ p, (array handle shape elements).normalize? = some p →
      HasShape shape p ∧
      (∀ index, shape.Covers index →
        ∃ e, elements[shape.position index]? = some e ∧ p.element? index = e.normalize?) ∧
      (∀ n < elements.length, ∃! index, shape.Covers index ∧ shape.position index = n) ∧
      nest? shape (elements.map normalize) = some (p, []) ∧
      (leaves shape.length p).map some = elements.map normalize? := by
  have hfills : shape.count? = some elements.length := Shape.count?_eq_some_iff.2 ⟨hcount, hsize⟩
  have hbuildable : (array handle shape elements).buildable = true ↔
      shape.buildable = true ∧ ∀ e ∈ elements, e.buildable = true := by
    rw [buildable, if_pos hfills, Bool.and_eq_true, allBuildable_iff]
  constructor
  · simp only [normalize?_eq_none_iff, ← Bool.not_eq_true, hbuildable, Shape.buildable_iff]
    rw [not_and_or]
    simp
  · intro p hp
    have hall : (array handle shape elements).buildable = true := by
      by_contra hnot
      rw [normalize?_eq_none_iff.2 (Bool.not_eq_true _ ▸ hnot)] at hp
      contradiction
    have hbuild := (hbuildable.1 hall).2
    have hnest : p = (nest shape (elements.map normalize)).1 := by
      rw [normalize?_of_buildable hall, normalize, if_pos hfills, normalizeAll_eq_map] at hp
      exact (Option.some.inj hp).symm
    have hlength : (elements.map normalize).length = shape.product := by
      rw [List.length_map, hcount]
    have hroom := Nat.le_of_eq hlength.symm
    subst hnest
    refine ⟨hasShape_nest _ _, ?_, ?_, ?_, ?_⟩
    · intro index hindex
      have hposition : shape.position index < elements.length := hcount ▸ Shape.position_lt hindex
      refine ⟨elements[shape.position index], List.getElem?_eq_getElem hposition, ?_⟩
      rw [element?_nest hindex hroom, List.getElem?_map, List.getElem?_eq_getElem hposition,
        normalize?_of_buildable (hbuild _ (List.getElem_mem _)), Option.map_some]
    · intro n hn
      exact Shape.existsUnique_position (hcount ▸ hn)
    · have hrest : (nest shape (elements.map normalize)).2 = [] := by
        rw [nest_snd, ← hlength, List.drop_length]
      rw [nest?_eq_some shape hroom]
      exact congrArg some (Prod.ext rfl hrest)
    · rw [leaves_nest shape hroom, ← hlength, List.take_length, List.map_map]
      exact List.map_congr_left fun e he => (normalize?_of_buildable (hbuild e he)).symm

/-- The third of four elements, in two rows, is an array that does not fill its
shape; it is left in place at the front of the second row. -/
theorem normalize?_array_row_major_of_two_rows :
    let elements := [int 1, array 1 [2] [null, null], array 2 [3] [null], bool true]
    Shape.product [2, 2] = elements.length ∧ elements.length < 18446744073709551616 ∧
      ∃ p, (array 0 [2, 2] elements).normalize? = some p ∧ HasShape [2, 2] p ∧
        p.element? [1, 0] = some (array 2 [3] [null]) ∧
        (leaves 2 p).map some = elements.map normalize? := by
  intro elements
  have hcount : Shape.product [2, 2] = elements.length := by decide
  obtain ⟨-, hvalue⟩ := normalize?_array_row_major 0 hcount (by decide)
  obtain ⟨hshape, helement, -, -, hleaves⟩ := hvalue _ rfl
  refine ⟨hcount, by decide, _, rfl, hshape, ?_, hleaves⟩
  obtain ⟨e, he, hthird⟩ := helement [1, 0] (.cons (by decide) (.cons (by decide) .nil))
  rw [hthird, ← Option.some.inj he]
  rfl

/-- **An array without elements may ask for too much.**  Its shape calls for no
element, so it is filled, and for `2 ^ 64 - 1` empty rows. -/
theorem normalize?_eq_none_of_empty_rows :
    Shape.product [18446744073709551615, 0] = ([] : List Payload).length ∧
      (array 0 [18446744073709551615, 0] []).normalize? = none :=
  ⟨by decide, rfl⟩

end Payload

end TraceLog
