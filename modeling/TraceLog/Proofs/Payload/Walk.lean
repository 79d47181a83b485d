import Mathlib.Data.List.Sort
import TraceLog.Payload.Encode
import TraceLog.Proofs.Payload.Idempotence

/-!
# TraceLog.Proofs.Payload.Walk

What stands in the way of a document, and in which order.

A walk goes through a payload as its document is written, from the front to the
back of the text, and enters the arrays that fill their shapes.  Normalizing
rebuilds the tree, but what the walk meets stays in place: the fault that is
reported for the normalized form is that of the first thing on the way that has
no document.

* `Payload.walk` — the arrays and floating-point numbers on the way;
* `Payload.offences` — the parts of a tree that have no document, in order;
* `Payload.answers_toJson` — the first of them is the fault;
* `Payload.offences_normalize` — normalizing keeps them and their order;
* `Payload.normalize?_keeps_faults` — what becomes of a walk.
-/

namespace TraceLog

/-! ## Keys by their bytes -/

namespace Entries

variable {α : Type}

/-- The bytes of a key. -/
def keyBytes (key : String) : List UInt8 := key.toUTF8.data.toList

/-- The entries in the order of the bytes of their keys. -/
def sortByBytes (entries : Entries α) : Entries α :=
  entries.insertionSort fun a b => keyBytes a.1 ≤ keyBytes b.1

theorem keyBytes_eq_flatMap (key : String) :
    keyBytes key = key.toList.flatMap String.utf8EncodeChar := by
  conv_lhs => rw [← String.ofList_toList (s := key)]
  rw [keyBytes, String.toUTF8_eq_toByteArray, String.toByteArray_ofList, List.utf8Encode,
    List.data_toByteArray]

/-- Characters compare as their bytes do, whatever stands behind them. -/
theorem utf8EncodeChar_append_lt {c d : Char} (h : c < d) (cs ds : List UInt8) :
    String.utf8EncodeChar c ++ cs < String.utf8EncodeChar d ++ ds := by
  have hval : c.val.toNat < d.val.toNat := h
  have hrange : d.val.toNat < 1114112 := by
    rcases d.valid with hlow | ⟨-, hhigh⟩
    · omega
    · exact hhigh
  unfold String.utf8EncodeChar
  generalize c.val.toNat = m at hval
  generalize d.val.toNat = n at hval hrange
  -- No byte is cut off, and all of them are digits in base 64.
  have h8 : ∀ a : Nat, (a % 8 + 240) % 2 ^ 8 = a % 8 + 240 := by omega
  have h16 : ∀ a : Nat, (a % 16 + 224) % 2 ^ 8 = a % 16 + 224 := by omega
  have h32 : ∀ a : Nat, (a % 32 + 192) % 2 ^ 8 = a % 32 + 192 := by omega
  have h64 : ∀ a : Nat, (a % 64 + 128) % 2 ^ 8 = a % 64 + 128 := by omega
  have h4096 : ∀ a : Nat, a / 4096 = a / 64 / 64 := by omega
  have h262144 : ∀ a : Nat, a / 262144 = a / 64 / 64 / 64 := by omega
  dsimp only
  split_ifs <;>
    simp only [List.cons_append, List.nil_append, List.cons_lt_cons_iff, UInt8.lt_iff_toNat_lt,
      ← UInt8.toNat_inj, UInt8.toNat_ofNat', h8, h16, h32, h64, h4096, h262144] <;>
    omega

theorem flatMap_utf8EncodeChar_lt {cs ds : List Char} (h : cs < ds) :
    cs.flatMap String.utf8EncodeChar < ds.flatMap String.utf8EncodeChar := by
  induction cs generalizing ds with
  | nil =>
      cases ds with
      | nil => exact absurd h (List.lt_irrefl [])
      | cons d ds =>
          obtain ⟨b, bs, hb⟩ := List.exists_cons_of_ne_nil (String.utf8EncodeChar_ne_nil (c := d))
          rw [List.flatMap_cons, hb]
          exact List.Lex.nil
  | cons c cs ih =>
      cases ds with
      | nil => exact absurd h (List.not_lt_nil _)
      | cons d ds =>
          rw [List.flatMap_cons, List.flatMap_cons]
          rcases List.cons_lt_cons_iff.1 h with hcd | ⟨rfl, hrest⟩
          · exact utf8EncodeChar_append_lt hcd _ _
          · exact List.append_left_lt (ih hrest)

/-- Texts compare as their bytes do. -/
theorem keyBytes_lt {a b : String} (h : a < b) : keyBytes a < keyBytes b := by
  rw [keyBytes_eq_flatMap, keyBytes_eq_flatMap]
  exact flatMap_utf8EncodeChar_lt (String.lt_iff.1 h)

/-- The entries of a map are in the order of the bytes of their keys. -/
theorem Ascending.sortByBytes_eq {entries : Entries α} (h : entries.Ascending) :
    entries.sortByBytes = entries :=
  List.Pairwise.insertionSort_eq (h.imp fun hlt => List.le_of_lt (keyBytes_lt hlt))

end Entries

namespace Payload

/-! ## Walks -/

/-- What a walk meets. -/
inductive Visit where
  /-- An array that fills its shape; its elements come next. -/
  | entered (shape : Shape)
  /-- An array that does not fill its shape. -/
  | left (shape : Shape)
  | float (x : Binary64)
  deriving DecidableEq, Repr

/-- Why there is no document of what was met. -/
def Visit.fault? : Visit → Option EncodeFault
  | .entered _ => none
  | .left shape => some (.leftArray shape)
  | .float x => if x.isFinite then none else some (.nonFinite x)

mutual

/-- What is met on the way through a payload: lists from the front, maps by the
bytes of their keys, and arrays that fill their shapes in row-major order.
Lengths are numbers of 64 bits. -/
def walk : Payload → List Visit
  | .float x => [.float x]
  | .list items => walkItems items
  | .map entries => (Entries.sortByBytes (walkValues entries)).flatMap (·.2)
  | .array _ shape elements =>
    if shape.product = elements.length ∧ elements.length < 18446744073709551616 then
      .entered shape :: walkItems elements
    else [.left shape]
  | .null | .bool _ | .int _ | .uint _ | .str _ => []

/-- What is met on the way through the items. -/
def walkItems : List Payload → List Visit
  | [] => []
  | item :: rest => item.walk ++ walkItems rest

/-- What is met on the way through each value of the entries. -/
def walkValues : List (String × Payload) → List (String × List Visit)
  | [] => []
  | (key, value) :: rest => (key, value.walk) :: walkValues rest

end

theorem walkItems_eq_flatMap (items : List Payload) : walkItems items = items.flatMap walk := by
  induction items with
  | nil => rfl
  | cons item items ih => rw [walkItems, ih, List.flatMap_cons]

theorem walkValues_eq_map (entries : List (String × Payload)) :
    walkValues entries = entries.map fun entry => (entry.1, entry.2.walk) := by
  induction entries with
  | nil => rfl
  | cons entry entries ih =>
      obtain ⟨key, value⟩ := entry
      rw [walkValues, ih, List.map_cons]

/-- A map is walked through from the front. -/
theorem walk_map {entries : List (String × Payload)} (h : Entries.Ascending entries) :
    (Payload.map entries).walk = entries.flatMap fun entry => entry.2.walk := by
  have hkeys : Entries.Ascending (walkValues entries) := by
    rw [walkValues_eq_map]
    exact List.pairwise_map.2 h
  rw [walk, hkeys.sortByBytes_eq, walkValues_eq_map, List.flatMap_map]

theorem walk_array_of_fills (handle : Nat) {shape : Shape} {elements : List Payload}
    (hcount : shape.count? = some elements.length) :
    (Payload.array handle shape elements).walk = .entered shape :: elements.flatMap walk := by
  rw [walk, if_pos (Shape.count?_eq_some_iff.1 hcount), walkItems_eq_flatMap]

theorem walk_array_of_not_fills (handle : Nat) {shape : Shape} {elements : List Payload}
    (hcount : ¬shape.count? = some elements.length) :
    (Payload.array handle shape elements).walk = [.left shape] := by
  rw [walk, if_neg fun h => hcount (Shape.count?_eq_some_iff.2 h)]

/-! ## What has no document -/

mutual

/-- What has no document in a tree, in the order of its text.  No array has
one, whether it fills its shape or not. -/
def offences : Payload → List EncodeFault
  | .float x => if x.isFinite then [] else [.nonFinite x]
  | .list items => offencesOfItems items
  | .map entries => offencesOfValues entries
  | .array _ shape _ => [.leftArray shape]
  | .null | .bool _ | .int _ | .uint _ | .str _ => []

/-- `offences` of the items in turn. -/
def offencesOfItems : List Payload → List EncodeFault
  | [] => []
  | item :: rest => item.offences ++ offencesOfItems rest

/-- `offences` of the values of the entries in turn. -/
def offencesOfValues : List (String × Payload) → List EncodeFault
  | [] => []
  | (_, value) :: rest => value.offences ++ offencesOfValues rest

end

theorem offences_list (items : List Payload) :
    (Payload.list items).offences = items.flatMap offences := by
  rw [offences]
  induction items with
  | nil => rfl
  | cons item items ih => rw [offencesOfItems, ih, List.flatMap_cons]

theorem offences_map (entries : List (String × Payload)) :
    (Payload.map entries).offences = entries.flatMap fun entry => entry.2.offences := by
  rw [offences]
  induction entries with
  | nil => rfl
  | cons entry entries ih =>
      obtain ⟨key, value⟩ := entry
      rw [offencesOfValues, ih, List.flatMap_cons]

/-- The first of the faults is what an attempt ended with; it succeeded if
there are none. -/
def Answers {α : Type} (result : Except EncodeFault α) (faults : List EncodeFault) : Prop :=
  match result with
  | .ok _ => faults = []
  | .error fault => faults.head? = some fault

/-- Attempts in turn stop at the first fault. -/
theorem Answers.bind {α β : Type} {first : Except EncodeFault α}
    {next : α → Except EncodeFault β} {faults more : List EncodeFault}
    (hfirst : Answers first faults) (hnext : ∀ a, Answers (next a) more) :
    Answers (first >>= next) (faults ++ more) := by
  cases first with
  | error fault =>
      have hhead : faults.head? = some fault := hfirst
      show (faults ++ more).head? = some fault
      rw [List.head?_append, hhead, Option.some_or]
  | ok a =>
      have hnone : faults = [] := hfirst
      rw [hnone]
      exact hnext a

mutual

/-- **The fault of a tree is the first part of it that has no document.** -/
theorem answers_toJson (p : Payload) : Answers p.toJson p.offences := by
  match p with
  | .null | .bool _ | .int _ | .uint _ | .str _ | .array _ _ _ => rfl
  | .float x =>
      rw [toJson, offences]
      split
      · rfl
      · rfl
  | .list items =>
      rw [toJson, offences, ← List.append_nil (offencesOfItems items)]
      exact (answers_itemsToJson items).bind fun _ => rfl
  | .map entries =>
      rw [toJson, offences, ← List.append_nil (offencesOfValues entries)]
      exact (answers_entriesToJson entries).bind fun _ => rfl

/-- `answers_toJson` for the items in turn. -/
theorem answers_itemsToJson (items : List Payload) :
    Answers (itemsToJson items) (offencesOfItems items) := by
  match items with
  | [] => rfl
  | item :: rest =>
      rw [itemsToJson, offencesOfItems, ← List.append_nil (offencesOfItems rest)]
      exact (answers_toJson item).bind fun _ => (answers_itemsToJson rest).bind fun _ => rfl

/-- `answers_toJson` for the values of the entries in turn. -/
theorem answers_entriesToJson (entries : List (String × Payload)) :
    Answers (entriesToJson entries) (offencesOfValues entries) := by
  match entries with
  | [] => rfl
  | (key, value) :: rest =>
      rw [entriesToJson, offencesOfValues, ← List.append_nil (offencesOfValues rest)]
      exact (answers_toJson value).bind fun _ => (answers_entriesToJson rest).bind fun _ => rfl

end

/-- A payload has a text, or its first offence is the fault. -/
theorem answers_encode (p : Payload) : Answers p.encode p.offences := by
  have hdocument := p.answers_toJson
  rw [encode]
  cases htoJson : p.toJson with
  | error fault => rwa [htoJson] at hdocument
  | ok document => rwa [htoJson] at hdocument

/-! ## Normalized trees -/

mutual

/-- **Normalizing neither hides nor adds nor moves anything that has no
document.** -/
theorem offences_normalize (p : Payload) (h : p.Ordered) :
    p.normalize.offences = p.walk.filterMap Visit.fault? := by
  match p with
  | .null | .bool _ | .int _ | .uint _ | .str _ => rfl
  | .float x =>
      rw [normalize, offences, walk, List.filterMap_cons, Visit.fault?]
      split
      · rfl
      · rfl
  | .list items =>
      rw [Ordered] at h
      rw [normalize, normalizeAll_eq_map, offences_list, List.flatMap_map, walk,
        walkItems_eq_flatMap]
      exact offences_normalizeAll items h
  | .map entries =>
      rw [Ordered] at h
      rw [normalize, normalizeValues_eq_map, offences_map, List.flatMap_map, walk_map h.1]
      exact offences_normalizeValues entries h.2
  | .array handle shape elements =>
      rw [Ordered] at h
      by_cases hcount : shape.count? = some elements.length
      · rw [flatMap_normalize_array offences_list handle hcount,
          walk_array_of_fills handle hcount, List.filterMap_cons_none rfl]
        exact offences_normalizeAll elements h
      · rw [normalize, if_neg hcount, walk_array_of_not_fills handle hcount]
        rfl

/-- `offences_normalize` for the items in turn. -/
theorem offences_normalizeAll (items : List Payload) (h : OrderedItems items) :
    (items.flatMap fun item => item.normalize.offences) =
      (items.flatMap walk).filterMap Visit.fault? := by
  match items with
  | [] => rfl
  | item :: rest =>
      rw [OrderedItems] at h
      rw [List.flatMap_cons, List.flatMap_cons, List.filterMap_append,
        offences_normalize item h.1, offences_normalizeAll rest h.2]

/-- `offences_normalize` for the values of the entries in turn. -/
theorem offences_normalizeValues (entries : List (String × Payload)) (h : OrderedValues entries) :
    (entries.flatMap fun entry => entry.2.normalize.offences) =
      (entries.flatMap fun entry => entry.2.walk).filterMap Visit.fault? := by
  match entries with
  | [] => rfl
  | (_, value) :: rest =>
      rw [OrderedValues] at h
      rw [List.flatMap_cons, List.flatMap_cons, List.filterMap_append,
        offences_normalize value h.1, offences_normalizeValues rest h.2]

end

/-! ## Arrays in a tree -/

/-- No offence is an array. -/
def NoArrays (faults : List EncodeFault) : Prop := ∀ shape, EncodeFault.leftArray shape ∉ faults

theorem noArrays_append_iff {faults more : List EncodeFault} :
    NoArrays (faults ++ more) ↔ NoArrays faults ∧ NoArrays more := by
  simp only [NoArrays, List.mem_append, not_or, forall_and]

mutual

/-- A tree is normalized exactly if none of its offences is an array. -/
theorem isNormalized_iff_noArrays (p : Payload) :
    p.isNormalized = true ↔ NoArrays p.offences := by
  match p with
  | .null | .bool _ | .int _ | .uint _ | .str _ => simp [isNormalized, offences, NoArrays]
  | .float x =>
      rw [isNormalized, offences]
      split
      · simp [NoArrays]
      · simp [NoArrays]
  | .array _ shape _ => simp [isNormalized, offences, NoArrays]
  | .list items =>
      rw [isNormalized, offences]
      exact allNormalized_iff_noArrays items
  | .map entries =>
      rw [isNormalized, offences]
      exact valuesNormalized_iff_noArrays entries

/-- `isNormalized_iff_noArrays` for the items. -/
theorem allNormalized_iff_noArrays (items : List Payload) :
    allNormalized items = true ↔ NoArrays (offencesOfItems items) := by
  match items with
  | [] => simp [allNormalized, offencesOfItems, NoArrays]
  | item :: rest =>
      rw [allNormalized, offencesOfItems, Bool.and_eq_true, noArrays_append_iff,
        isNormalized_iff_noArrays item, allNormalized_iff_noArrays rest]

/-- `isNormalized_iff_noArrays` for the values of the entries. -/
theorem valuesNormalized_iff_noArrays (entries : List (String × Payload)) :
    valuesNormalized entries = true ↔ NoArrays (offencesOfValues entries) := by
  match entries with
  | [] => simp [valuesNormalized, offencesOfValues, NoArrays]
  | (_, value) :: rest =>
      rw [valuesNormalized, offencesOfValues, Bool.and_eq_true, noArrays_append_iff,
        isNormalized_iff_noArrays value, valuesNormalized_iff_noArrays rest]

end

/-- The arrays of a normalized form are those that the walk does not enter. -/
theorem isNormalized_normalize_iff (p : Payload) (h : p.Ordered) :
    p.normalize.isNormalized = true ↔ ∀ shape, Visit.left shape ∉ p.walk := by
  rw [isNormalized_iff_noArrays, offences_normalize p h]
  refine forall_congr' fun shape => not_congr ?_
  rw [List.mem_filterMap]
  constructor
  · rintro ⟨visit, hvisit, hfault⟩
    cases visit with
    | entered entered => simp [Visit.fault?] at hfault
    | left left =>
        rw [Visit.fault?, Option.some.injEq, EncodeFault.leftArray.injEq] at hfault
        exact hfault ▸ hvisit
    | float x => simp [Visit.fault?] at hfault
  · exact fun hvisit => ⟨_, hvisit, rfl⟩

/-- The lists of all arrays that are entered can be built. -/
def Buildable (visits : List Visit) : Prop :=
  ∀ shape, Visit.entered shape ∈ visits → shape.buildable = true

theorem buildable_append_iff {visits more : List Visit} :
    Buildable (visits ++ more) ↔ Buildable visits ∧ Buildable more := by
  simp only [Buildable, List.mem_append, or_imp, forall_and]

mutual

/-- Normalizing builds the lists of the arrays that the walk enters, and no
others. -/
theorem buildable_iff_walk (p : Payload) (h : p.Ordered) :
    p.buildable = true ↔ Buildable p.walk := by
  match p with
  | .null | .bool _ | .int _ | .uint _ | .str _ | .float _ =>
      simp [buildable, walk, Buildable]
  | .list items =>
      rw [Ordered] at h
      rw [buildable_list_iff, walk, walkItems_eq_flatMap]
      exact allBuildable_iff_walk items h
  | .map entries =>
      rw [Ordered] at h
      rw [buildable, valuesBuildable_iff, walk_map h.1]
      exact valuesBuildable_iff_walk entries h.2
  | .array handle shape elements =>
      rw [Ordered] at h
      by_cases hcount : shape.count? = some elements.length
      · have helements := allBuildable_iff_walk elements h
        rw [buildable, if_pos hcount, Bool.and_eq_true, allBuildable_iff, helements,
          walk_array_of_fills handle hcount]
        simp [Buildable]
      · rw [buildable, if_neg hcount, walk_array_of_not_fills handle hcount]
        simp [Buildable]

/-- `buildable_iff_walk` for the items. -/
theorem allBuildable_iff_walk (items : List Payload) (h : OrderedItems items) :
    (∀ item ∈ items, item.buildable = true) ↔ Buildable (items.flatMap walk) := by
  match items with
  | [] => simp [Buildable]
  | item :: rest =>
      rw [OrderedItems] at h
      rw [List.forall_mem_cons, List.flatMap_cons, buildable_append_iff,
        buildable_iff_walk item h.1, allBuildable_iff_walk rest h.2]

/-- `buildable_iff_walk` for the values of the entries. -/
theorem valuesBuildable_iff_walk (entries : List (String × Payload)) (h : OrderedValues entries) :
    (∀ entry ∈ entries, entry.2.buildable = true) ↔
      Buildable (entries.flatMap fun entry => entry.2.walk) := by
  match entries with
  | [] => simp [Buildable]
  | (_, value) :: rest =>
      rw [OrderedValues] at h
      rw [List.forall_mem_cons, List.flatMap_cons, buildable_append_iff,
        buildable_iff_walk value h.1, valuesBuildable_iff_walk rest h.2]

end

/-! ## What becomes of a walk -/

/-- Normalizing comes to no end exactly if the walk enters an array that asks
for a list that is too long. -/
theorem normalize?_eq_none_iff_walk (p : Payload) (h : p.Ordered) :
    p.normalize? = none ↔ ∃ shape, Visit.entered shape ∈ p.walk ∧
      ∃ dim ∈ shape.takeWhile (· != 0), Shape.maxEntries < dim.toNat := by
  rw [normalize?_eq_none_iff, ← Bool.not_eq_true, buildable_iff_walk p h, Buildable]
  simp only [Shape.buildable_iff]
  push Not
  rfl

/-- **Normalizing keeps the faults of a payload.**  It comes to no end exactly
if the walk enters an array that asks for a list that is too long.  Otherwise an
array is left exactly if the walk meets one that does not fill its shape; there
is a text exactly if the walk meets neither such an array nor a number that is
not finite; and if there is none, then the fault is that of the first of them on
the walk. -/
theorem normalize?_keeps_faults (p : Payload) (h : p.Ordered) :
    (p.normalize? = none ↔ ∃ shape, Visit.entered shape ∈ p.walk ∧
      ∃ dim ∈ shape.takeWhile (· != 0), Shape.maxEntries < dim.toNat) ∧
    ∀ q, p.normalize? = some q →
      (q.isNormalized = true ↔ ∀ shape, Visit.left shape ∉ p.walk) ∧
      ((∃ text, q.encode = .ok text) ↔ ∀ visit ∈ p.walk, visit.fault? = none) ∧
      ∀ fault, q.encode = .error fault ↔ p.walk.findSome? Visit.fault? = some fault := by
  refine ⟨normalize?_eq_none_iff_walk p h, fun q hq => ?_⟩
  have hnormal : q = p.normalize := by
    rw [normalize?] at hq
    split at hq
    · exact (Option.some.inj hq).symm
    · contradiction
  subst hnormal
  have hanswer := p.normalize.answers_encode
  rw [offences_normalize p h] at hanswer
  refine ⟨isNormalized_normalize_iff p h, ?_, fun fault => ?_⟩
  · rw [← List.filterMap_eq_nil_iff]
    cases hencode : p.normalize.encode with
    | ok text =>
        rw [hencode] at hanswer
        exact ⟨fun _ => hanswer, fun _ => ⟨text, rfl⟩⟩
    | error fault =>
        rw [hencode] at hanswer
        refine ⟨by simp, fun hnone => ?_⟩
        rw [hnone] at hanswer
        contradiction
  · rw [← List.head?_filterMap]
    cases hencode : p.normalize.encode with
    | ok text =>
        rw [hencode] at hanswer
        rw [hanswer]
        simp
    | error found =>
        rw [hencode] at hanswer
        rw [hanswer, Except.error.injEq, Option.some.injEq]

/-- Under the first key an array is entered in which one is left, behind a
finite number; under the second one is a number that is none.  The array comes
first. -/
theorem normalize?_keeps_faults_of_two_offences :
    let p : Payload := .map
      [("a", .array 0 [1, 2] [.float ⟨0⟩, .array 1 [3] [.null]]), ("é", .float ⟨0x7ff8000000000000⟩)]
    p.Ordered ∧ ∃ q, p.normalize? = some q ∧ q.isNormalized = false ∧
      q.encode = .error (.leftArray [3]) := by
  intro p
  have hordered : p.Ordered := by
    simp only [p, Ordered, OrderedItems, OrderedValues, and_true]
    exact List.pairwise_pair.2 (by decide)
  obtain ⟨-, hvalue⟩ := normalize?_keeps_faults p hordered
  obtain ⟨hnormal, -, hfault⟩ := hvalue _ rfl
  refine ⟨hordered, _, rfl, ?_, (hfault _).2 (by decide +kernel)⟩
  rw [← Bool.not_eq_true, hnormal]
  exact fun hnone => hnone [3] (by decide +kernel)

/-- **A fault may be hidden behind a list that is too long.**  The walk meets a
number that is none, and then an array of `2 ^ 64 - 1` empty rows, for which
normalizing comes to no end. -/
theorem normalize?_eq_none_behind_nonFinite :
    let p : Payload := .list [.float ⟨0x7ff8000000000000⟩, .array 0 [18446744073709551615, 0] []]
    p.Ordered ∧ p.walk.findSome? Visit.fault? = some (.nonFinite ⟨0x7ff8000000000000⟩) ∧
      p.normalize? = none := by
  intro p
  exact ⟨by simp [p, Ordered, OrderedItems], by decide +kernel, rfl⟩

end Payload

end TraceLog
