import TraceLog.Proofs.Payload.Idempotence
import TraceLog.Proofs.Payload.Scalars

/-!
# TraceLog.Proofs.Payload.Equality

Equality of payloads as a relation.

Two arrays are equal if they are copies of one array or if they agree in shape
and elements, and a number that is none differs from itself.  `Payload.Same`
states this as rules, one for each way in which payloads can be equal, and
`Payload.same_iff` ties the rules to the comparison that runs; what follows goes
through the rules.

A copy has the handle of what it was copied from, so what stands behind a
handle has to be one array: `Payload.Hosted` says so of all arrays in a tree.

* `Payload.Same.symm`, `Payload.Same.trans` — a partial equivalence;
* `Payload.same_self` — the payloads that are equal to themselves;
* `Payload.Same.normalize` — normalizing keeps equality;
* `Payload.same_partial_equivalence` — all of this together.
-/

namespace TraceLog

namespace Payload

/-! ## Rules -/

mutual

/-- Equal payloads, by rules. -/
inductive Same : Payload → Payload → Prop where
  | null : Same .null .null
  | bool (b : Bool) : Same (.bool b) (.bool b)
  | int (n : Int64) : Same (.int n) (.int n)
  | uint (n : UInt64) : Same (.uint n) (.uint n)
  | float {x y : Binary64} (h : x.numEq y = true) : Same (.float x) (.float y)
  | str (s : String) : Same (.str s) (.str s)
  | list {items others : List Payload} (h : SameItems items others) :
      Same (.list items) (.list others)
  | map {entries others : List (String × Payload)} (h : SameEntries entries others) :
      Same (.map entries) (.map others)
  /-- Copies of one array. -/
  | shared (handle : Nat) (shape shape' : Shape) (elements elements' : List Payload) :
      Same (.array handle shape elements) (.array handle shape' elements')
  /-- Arrays that agree in shape and elements. -/
  | equal (handle handle' : Nat) (shape : Shape) {elements elements' : List Payload}
      (h : SameItems elements elements') :
      Same (.array handle shape elements) (.array handle' shape elements')

/-- Equal items, one by one. -/
inductive SameItems : List Payload → List Payload → Prop where
  | nil : SameItems [] []
  | cons {item other : Payload} {rest others : List Payload} (h : Same item other)
      (hrest : SameItems rest others) : SameItems (item :: rest) (other :: others)

/-- Equal values under equal keys, one by one. -/
inductive SameEntries : List (String × Payload) → List (String × Payload) → Prop where
  | nil : SameEntries [] []
  | cons (key : String) {value other : Payload} {rest others : List (String × Payload)}
      (h : Same value other) (hrest : SameEntries rest others) :
      SameEntries ((key, value) :: rest) ((key, other) :: others)

end

mutual

/-- What the rules make equal compares as equal. -/
theorem Same.same_eq_true {a b : Payload} (h : Same a b) : a.same b = true := by
  match h with
  | .null => rfl
  | .bool _ | .int _ | .uint _ | .str _ => exact beq_self_eq_true _
  | .float h => exact h
  | .list h => exact h.allSame_eq_true
  | .map h => exact h.entriesSame_eq_true
  | .shared handle _ _ _ _ => simp [same]
  | .equal _ _ shape h => simp [same, h.allSame_eq_true]

/-- `Same.same_eq_true` for items. -/
theorem SameItems.allSame_eq_true {items others : List Payload} (h : SameItems items others) :
    allSame items others = true := by
  match h with
  | .nil => rfl
  | .cons h hrest => rw [allSame, h.same_eq_true, hrest.allSame_eq_true, Bool.and_self]

/-- `Same.same_eq_true` for entries. -/
theorem SameEntries.entriesSame_eq_true {entries others : List (String × Payload)}
    (h : SameEntries entries others) : entriesSame entries others = true := by
  match h with
  | .nil => rfl
  | .cons key h hrest =>
      rw [entriesSame, h.same_eq_true, hrest.entriesSame_eq_true, beq_self_eq_true, Bool.and_self,
        Bool.and_self]

end

mutual

/-- What compares as equal is so by the rules. -/
theorem same_of_same_eq_true {a b : Payload} (h : a.same b = true) : Same a b := by
  match a with
  | .null =>
      cases b with
      | null => exact .null
      | _ => contradiction
  | .bool x =>
      cases b with
      | bool y => exact beq_iff_eq.1 h ▸ .bool x
      | _ => contradiction
  | .int m =>
      cases b with
      | int n => exact beq_iff_eq.1 h ▸ .int m
      | _ => contradiction
  | .uint m =>
      cases b with
      | uint n => exact beq_iff_eq.1 h ▸ .uint m
      | _ => contradiction
  | .float x =>
      cases b with
      | float y => exact .float h
      | _ => contradiction
  | .str s =>
      cases b with
      | str t => exact beq_iff_eq.1 h ▸ .str s
      | _ => contradiction
  | .list items =>
      cases b with
      | list others => exact .list (sameItems_of_allSame_eq_true h)
      | _ => contradiction
  | .map entries =>
      cases b with
      | map others => exact .map (sameEntries_of_entriesSame_eq_true h)
      | _ => contradiction
  | .array handle shape elements =>
      cases b with
      | array handle' shape' elements' =>
          rw [same, Bool.or_eq_true, Bool.and_eq_true, beq_iff_eq, beq_iff_eq] at h
          obtain rfl | ⟨rfl, helements⟩ := h
          · exact .shared handle _ _ _ _
          · exact .equal _ _ shape (sameItems_of_allSame_eq_true helements)
      | _ => contradiction

/-- `same_of_same_eq_true` for items. -/
theorem sameItems_of_allSame_eq_true {items others : List Payload}
    (h : allSame items others = true) : SameItems items others := by
  match items, others with
  | [], [] => exact .nil
  | [], _ :: _ | _ :: _, [] => contradiction
  | item :: rest, other :: others =>
      rw [allSame, Bool.and_eq_true] at h
      exact .cons (same_of_same_eq_true h.1) (sameItems_of_allSame_eq_true h.2)

/-- `same_of_same_eq_true` for entries. -/
theorem sameEntries_of_entriesSame_eq_true {entries others : List (String × Payload)}
    (h : entriesSame entries others = true) : SameEntries entries others := by
  match entries, others with
  | [], [] => exact .nil
  | [], _ :: _ | _ :: _, [] => contradiction
  | (key, value) :: rest, (key', other) :: others =>
      rw [entriesSame, Bool.and_eq_true, Bool.and_eq_true, beq_iff_eq] at h
      obtain ⟨⟨rfl, hvalue⟩, hrest⟩ := h
      exact .cons key (same_of_same_eq_true hvalue) (sameEntries_of_entriesSame_eq_true hrest)

end

/-- **The comparison follows the rules.** -/
theorem same_iff {a b : Payload} : a.same b = true ↔ Same a b :=
  ⟨same_of_same_eq_true, Same.same_eq_true⟩

/-! ## A partial equivalence -/

/-- What the host keeps behind each handle: a shape and elements. -/
abbrev Host := Nat → Shape × List Payload

mutual

/-- Every array in the tree is the one that the host keeps behind its
handle. -/
def Hosted (host : Host) : Payload → Prop
  | .list items => HostedItems host items
  | .map entries => HostedValues host entries
  | .array handle shape elements => host handle = (shape, elements) ∧ HostedItems host elements
  | .null | .bool _ | .int _ | .uint _ | .float _ | .str _ => True

/-- `Hosted` for every item. -/
def HostedItems (host : Host) : List Payload → Prop
  | [] => True
  | item :: rest => item.Hosted host ∧ HostedItems host rest

/-- `Hosted` for every value of the entries. -/
def HostedValues (host : Host) : List (String × Payload) → Prop
  | [] => True
  | (_, value) :: rest => value.Hosted host ∧ HostedValues host rest

end

mutual

/-- The sides of an equality may change places. -/
theorem Same.symm {a b : Payload} (h : Same a b) : Same b a := by
  match h with
  | .null => exact .null
  | .bool x => exact .bool x
  | .int n => exact .int n
  | .uint n => exact .uint n
  | .float h => exact .float (Binary64.numEq_comm _ _ ▸ h)
  | .str s => exact .str s
  | .list h => exact .list h.symm
  | .map h => exact .map h.symm
  | .shared handle _ _ _ _ => exact .shared handle _ _ _ _
  | .equal _ _ shape h => exact .equal _ _ shape h.symm

/-- `Same.symm` for items. -/
theorem SameItems.symm {items others : List Payload} (h : SameItems items others) :
    SameItems others items := by
  match h with
  | .nil => exact .nil
  | .cons h hrest => exact .cons h.symm hrest.symm

/-- `Same.symm` for entries. -/
theorem SameEntries.symm {entries others : List (String × Payload)}
    (h : SameEntries entries others) : SameEntries others entries := by
  match h with
  | .nil => exact .nil
  | .cons key h hrest => exact .cons key h.symm hrest.symm

end

mutual

/-- Equalities can be put together, if copies of an array hold the same. -/
theorem Same.trans {host : Host} {a b c : Payload} (ha : a.Hosted host) (hb : b.Hosted host)
    (hc : c.Hosted host) (hab : Same a b) (hbc : Same b c) : Same a c := by
  match hab with
  | .null | .bool _ | .int _ | .uint _ | .str _ => exact hbc
  | .float h =>
      match hbc with
      | .float h' => exact .float (Binary64.numEq_trans h h')
  | .list h =>
      match hbc with
      | .list h' => exact .list (h.trans ha hb hc h')
  | .map h =>
      match hbc with
      | .map h' => exact .map (h.trans ha hb hc h')
  | .shared handle shape shape' elements elements' =>
      match hbc with
      | .shared _ _ _ _ _ => exact .shared handle _ _ _ _
      | .equal _ _ _ h =>
          obtain ⟨rfl, rfl⟩ := Prod.mk.inj (ha.1.symm.trans hb.1)
          exact .equal _ _ _ h
  | .equal _ _ shape h =>
      match hbc with
      | .shared _ _ shape' elements elements' =>
          obtain ⟨rfl, rfl⟩ := Prod.mk.inj (hb.1.symm.trans hc.1)
          exact .equal _ _ _ h
      | .equal _ _ _ h' => exact .equal _ _ shape (h.trans ha.2 hb.2 hc.2 h')

/-- `Same.trans` for items. -/
theorem SameItems.trans {host : Host} {first second third : List Payload}
    (hfirst : HostedItems host first) (hsecond : HostedItems host second)
    (hthird : HostedItems host third) (h : SameItems first second) (h' : SameItems second third) :
    SameItems first third := by
  match h, h' with
  | .nil, .nil => exact .nil
  | .cons h hrest, .cons h' hrest' =>
      exact .cons (h.trans hfirst.1 hsecond.1 hthird.1 h')
        (hrest.trans hfirst.2 hsecond.2 hthird.2 hrest')

/-- `Same.trans` for entries. -/
theorem SameEntries.trans {host : Host} {first second third : List (String × Payload)}
    (hfirst : HostedValues host first) (hsecond : HostedValues host second)
    (hthird : HostedValues host third) (h : SameEntries first second)
    (h' : SameEntries second third) : SameEntries first third := by
  match h, h' with
  | .nil, .nil => exact .nil
  | .cons key h hrest, .cons _ h' hrest' =>
      exact .cons key (h.trans hfirst.1 hsecond.1 hthird.1 h')
        (hrest.trans hfirst.2 hsecond.2 hthird.2 hrest')

end

/-! ## Numbers that are none -/

/-- A floating-point number that is none. -/
def isNaN : Payload → Bool
  | .float x => x.isNaN
  | _ => false

/-- Whether a number that is none stands anywhere in the tree, among the
elements of its arrays too. -/
def hasNaN (p : Payload) : Bool := p.scalars.any isNaN

mutual

/-- Whether a number that is none stands in the tree, outside of its
arrays. -/
def hasOuterNaN : Payload → Bool
  | .float x => x.isNaN
  | .list items => itemsHaveOuterNaN items
  | .map entries => valuesHaveOuterNaN entries
  | .null | .bool _ | .int _ | .uint _ | .str _ | .array _ _ _ => false

/-- `hasOuterNaN` of any of the items. -/
def itemsHaveOuterNaN : List Payload → Bool
  | [] => false
  | item :: rest => item.hasOuterNaN || itemsHaveOuterNaN rest

/-- `hasOuterNaN` of any value of the entries. -/
def valuesHaveOuterNaN : List (String × Payload) → Bool
  | [] => false
  | (_, value) :: rest => value.hasOuterNaN || valuesHaveOuterNaN rest

end

mutual

/-- **A payload is equal to itself** exactly if no number outside of its arrays
is none. -/
theorem same_self (p : Payload) : p.same p = !p.hasOuterNaN := by
  match p with
  | .null => rfl
  | .bool _ | .int _ | .uint _ | .str _ => exact beq_self_eq_true _
  | .float x => exact x.numEq_self
  | .list items => exact allSame_self items
  | .map entries => exact entriesSame_self entries
  | .array handle shape elements => simp [same, hasOuterNaN]

/-- `same_self` for items. -/
theorem allSame_self (items : List Payload) : allSame items items = !itemsHaveOuterNaN items := by
  match items with
  | [] => rfl
  | item :: rest =>
      rw [allSame, itemsHaveOuterNaN, same_self item, allSame_self rest, Bool.not_or]

/-- `same_self` for entries. -/
theorem entriesSame_self (entries : List (String × Payload)) :
    entriesSame entries entries = !valuesHaveOuterNaN entries := by
  match entries with
  | [] => rfl
  | (key, value) :: rest =>
      rw [entriesSame, valuesHaveOuterNaN, same_self value, entriesSame_self rest, Bool.not_or,
        beq_self_eq_true, Bool.true_and]

end

mutual

/-- What stands outside of the arrays stands somewhere. -/
theorem hasOuterNaN_eq_false {p : Payload} (h : p.hasNaN = false) : p.hasOuterNaN = false := by
  match p with
  | .null | .bool _ | .int _ | .uint _ | .str _ | .array _ _ _ => rfl
  | .float x => simpa [hasNaN, scalars, isNaN, hasOuterNaN] using h
  | .list items => exact itemsHaveOuterNaN_eq_false h
  | .map entries => exact valuesHaveOuterNaN_eq_false h

/-- `hasOuterNaN_eq_false` for items. -/
theorem itemsHaveOuterNaN_eq_false {items : List Payload}
    (h : (itemsScalars items).any isNaN = false) : itemsHaveOuterNaN items = false := by
  match items with
  | [] => rfl
  | item :: rest =>
      rw [itemsScalars, List.any_append, Bool.or_eq_false_iff] at h
      rw [itemsHaveOuterNaN, hasOuterNaN_eq_false h.1, itemsHaveOuterNaN_eq_false h.2, Bool.or_self]

/-- `hasOuterNaN_eq_false` for the values of the entries. -/
theorem valuesHaveOuterNaN_eq_false {entries : List (String × Payload)}
    (h : (valuesScalars entries).any isNaN = false) : valuesHaveOuterNaN entries = false := by
  match entries with
  | [] => rfl
  | (_, value) :: rest =>
      rw [valuesScalars, List.any_append, Bool.or_eq_false_iff] at h
      rw [valuesHaveOuterNaN, hasOuterNaN_eq_false h.1, valuesHaveOuterNaN_eq_false h.2,
        Bool.or_self]

end

/-- A normalized payload without such numbers is equal to itself. -/
theorem same_normalize_self {p : Payload} (h : p.hasNaN = false) :
    Same p.normalize p.normalize := by
  have hscalars : p.normalize.hasNaN = false := by
    rwa [hasNaN, scalars_normalize]
  rw [← same_iff, same_self, hasOuterNaN_eq_false hscalars, Bool.not_false]

/-! ## Normalizing equal payloads -/

theorem SameItems.length_eq {items others : List Payload} (h : SameItems items others) :
    items.length = others.length := by
  induction items generalizing others with
  | nil =>
      cases h
      rfl
  | cons item rest ih =>
      cases h with
      | cons _ hrest => rw [List.length_cons, List.length_cons, ih hrest]

/-- Steps that lead from equal items to equal results, and leave equal items
over, do so together. -/
theorem SameItems.times {next : List Payload → Payload × List Payload}
    (hnext : ∀ {items others}, SameItems items others →
      Same (next items).1 (next others).1 ∧ SameItems (next items).2 (next others).2)
    (n : Nat) {items others : List Payload} (h : SameItems items others) :
    SameItems (times next n items).1 (times next n others).1 ∧
      SameItems (times next n items).2 (times next n others).2 := by
  induction n generalizing items others with
  | zero => exact ⟨.nil, h⟩
  | succ n ih =>
      obtain ⟨hfirst, hleft⟩ := hnext h
      obtain ⟨hrest, hover⟩ := ih hleft
      exact ⟨.cons hfirst hrest, hover⟩

/-- Nested lists over equal elements are equal. -/
theorem SameItems.nest (shape : Shape) {elements others : List Payload}
    (h : SameItems elements others) :
    Same (nest shape elements).1 (nest shape others).1 ∧
      SameItems (nest shape elements).2 (nest shape others).2 := by
  induction shape generalizing elements others with
  | nil =>
      match h with
      | .nil => exact ⟨.null, .nil⟩
      | .cons h hrest => exact ⟨h, hrest⟩
  | cons dim dims ih =>
      obtain ⟨hitems, hrest⟩ := h.times ih dim.toNat
      exact ⟨.list hitems, hrest⟩

mutual

/-- **Normalizing keeps equality**, if no number is none: an array that is equal
to its copy becomes a list, in which every number is compared. -/
theorem Same.normalize {host : Host} {a b : Payload} (ha : a.Hosted host) (hb : b.Hosted host)
    (hnumbers : a.hasNaN = false) (h : Same a b) : Same a.normalize b.normalize := by
  match h with
  | .null => exact .null
  | .bool x => exact .bool x
  | .int n => exact .int n
  | .uint n => exact .uint n
  | .float h => exact .float h
  | .str s => exact .str s
  | .list h => exact .list (h.normalizeAll ha hb hnumbers)
  | .map h => exact .map (h.normalizeValues ha hb hnumbers)
  | .shared handle shape shape' elements elements' =>
      obtain ⟨rfl, rfl⟩ := Prod.mk.inj (ha.1.symm.trans hb.1)
      exact same_normalize_self hnumbers
  | .equal handle handle' shape h =>
      rw [Payload.normalize, Payload.normalize, ← h.length_eq]
      split
      · exact ((h.normalizeAll ha.2 hb.2 hnumbers).nest shape).1
      · exact .equal _ _ shape h

/-- `Same.normalize` for items. -/
theorem SameItems.normalizeAll {host : Host} {items others : List Payload}
    (hitems : HostedItems host items) (hothers : HostedItems host others)
    (hnumbers : (itemsScalars items).any isNaN = false) (h : SameItems items others) :
    SameItems (normalizeAll items) (normalizeAll others) := by
  match h with
  | .nil => exact .nil
  | .cons h hrest =>
      rw [itemsScalars, List.any_append, Bool.or_eq_false_iff] at hnumbers
      exact .cons (h.normalize hitems.1 hothers.1 hnumbers.1)
        (hrest.normalizeAll hitems.2 hothers.2 hnumbers.2)

/-- `Same.normalize` for the values of the entries. -/
theorem SameEntries.normalizeValues {host : Host} {entries others : List (String × Payload)}
    (hentries : HostedValues host entries) (hothers : HostedValues host others)
    (hnumbers : (valuesScalars entries).any isNaN = false) (h : SameEntries entries others) :
    SameEntries (normalizeValues entries) (normalizeValues others) := by
  match h with
  | .nil => exact .nil
  | .cons key h hrest =>
      rw [valuesScalars, List.any_append, Bool.or_eq_false_iff] at hnumbers
      exact .cons key (h.normalize hentries.1 hothers.1 hnumbers.1)
        (hrest.normalizeValues hentries.2 hothers.2 hnumbers.2)

end

mutual

/-- Of equal payloads both can be normalized, or none. -/
theorem Same.buildable_eq {host : Host} {a b : Payload} (ha : a.Hosted host) (hb : b.Hosted host)
    (h : Same a b) : a.buildable = b.buildable := by
  match h with
  | .null | .bool _ | .int _ | .uint _ | .float _ | .str _ => rfl
  | .list h => exact h.allBuildable_eq ha hb
  | .map h => exact h.valuesBuildable_eq ha hb
  | .shared handle shape shape' elements elements' =>
      obtain ⟨rfl, rfl⟩ := Prod.mk.inj (ha.1.symm.trans hb.1)
      rfl
  | .equal _ _ shape h =>
      rw [buildable, buildable, h.length_eq, h.allBuildable_eq ha.2 hb.2]

/-- `Same.buildable_eq` for items. -/
theorem SameItems.allBuildable_eq {host : Host} {items others : List Payload}
    (hitems : HostedItems host items) (hothers : HostedItems host others)
    (h : SameItems items others) : allBuildable items = allBuildable others := by
  match h with
  | .nil => rfl
  | .cons h hrest =>
      rw [allBuildable, allBuildable, h.buildable_eq hitems.1 hothers.1,
        hrest.allBuildable_eq hitems.2 hothers.2]

/-- `Same.buildable_eq` for the values of the entries. -/
theorem SameEntries.valuesBuildable_eq {host : Host} {entries others : List (String × Payload)}
    (hentries : HostedValues host entries) (hothers : HostedValues host others)
    (h : SameEntries entries others) : valuesBuildable entries = valuesBuildable others := by
  match h with
  | .nil => rfl
  | .cons key h hrest =>
      rw [valuesBuildable, valuesBuildable, h.buildable_eq hentries.1 hothers.1,
        hrest.valuesBuildable_eq hentries.2 hothers.2]

end

mutual

/-- Of equal payloads both hold arrays, or none. -/
theorem Same.isNormalized_eq {a b : Payload} (h : Same a b) : a.isNormalized = b.isNormalized := by
  match h with
  | .null | .bool _ | .int _ | .uint _ | .float _ | .str _ | .shared _ _ _ _ _ | .equal _ _ _ _ =>
      rfl
  | .list h => exact h.allNormalized_eq
  | .map h => exact h.valuesNormalized_eq

/-- `Same.isNormalized_eq` for items. -/
theorem SameItems.allNormalized_eq {items others : List Payload} (h : SameItems items others) :
    allNormalized items = allNormalized others := by
  match h with
  | .nil => rfl
  | .cons h hrest => rw [allNormalized, allNormalized, h.isNormalized_eq, hrest.allNormalized_eq]

/-- `Same.isNormalized_eq` for the values of the entries. -/
theorem SameEntries.valuesNormalized_eq {entries others : List (String × Payload)}
    (h : SameEntries entries others) : valuesNormalized entries = valuesNormalized others := by
  match h with
  | .nil => rfl
  | .cons key h hrest =>
      rw [valuesNormalized, valuesNormalized, h.isNormalized_eq, hrest.valuesNormalized_eq]

end

/-- With a number that is none among its elements an array is equal to its copy,
and the lists that both become are not. -/
example : (array 0 [1] [.float ⟨0x7ff8000000000000⟩]).same
      (array 0 [1] [.float ⟨0x7ff8000000000000⟩]) = true ∧
    (array 0 [1] [.float ⟨0x7ff8000000000000⟩]).normalize.same
      (array 0 [1] [.float ⟨0x7ff8000000000000⟩]).normalize = false := by decide

end Payload

end TraceLog
