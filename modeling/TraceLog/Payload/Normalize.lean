import TraceLog.Payload.Basic

/-!
# TraceLog.Payload.Normalize

Arrays as nested lists.

`normalize` puts a nested list in the place of every array whose element count
is that of its shape, and leaves all other arrays where they are.  The last
dimension varies fastest: `nest` fills the innermost lists from the front of
the elements and hands on what it did not use.

`Payload.buildable` tells whether all lists that `normalize` is asked to build
can exist in memory.
-/

namespace TraceLog

namespace Payload

/-- Runs `next` the given number of times, each time on what the time before
left over. -/
def times {α β : Type} (next : List α → β × List α) : Nat → List α → List β × List α
  | 0, elements => ([], elements)
  | n + 1, elements =>
    let (first, elements) := next elements
    let (rest, elements) := times next n elements
    (first :: rest, elements)

/-- The nested list of a shape over the elements at the front, with the
elements that are left.  An array of no dimensions is its single element. -/
def nest : Shape → List Payload → Payload × List Payload
  | [], [] => (.null, [])
  | [], element :: rest => (element, rest)
  | dim :: dims, elements =>
    let (items, rest) := times (nest dims) dim.toNat elements
    (.list items, rest)

mutual

/-- The payload with nested lists in the place of its arrays.  An array whose
element count is not that of its shape is left as it is. -/
def normalize : Payload → Payload
  | .array handle shape elements =>
    if shape.count? = some elements.length then (nest shape (normalizeAll elements)).1
    else .array handle shape elements
  | .list items => .list (normalizeAll items)
  | .map entries => .map (normalizeValues entries)
  | .null => .null
  | .bool b => .bool b
  | .int n => .int n
  | .uint n => .uint n
  | .float x => .float x
  | .str s => .str s

/-- `normalize` on every item. -/
def normalizeAll : List Payload → List Payload
  | [] => []
  | item :: rest => item.normalize :: normalizeAll rest

/-- `normalize` on every value of the entries. -/
def normalizeValues : List (String × Payload) → List (String × Payload)
  | [] => []
  | (key, value) :: rest => (key, value.normalize) :: normalizeValues rest

end

mutual

/-- Whether every list that `normalize` builds from an array can exist. -/
def buildable : Payload → Bool
  | .array _ shape elements =>
    if shape.count? = some elements.length then shape.buildable && allBuildable elements else true
  | .list items => allBuildable items
  | .map entries => valuesBuildable entries
  | .null | .bool _ | .int _ | .uint _ | .float _ | .str _ => true

/-- `buildable` for every item. -/
def allBuildable : List Payload → Bool
  | [] => true
  | item :: rest => item.buildable && allBuildable rest

/-- `buildable` for every value of the entries. -/
def valuesBuildable : List (String × Payload) → Bool
  | [] => true
  | (_, value) :: rest => value.buildable && valuesBuildable rest

end

/-- `normalize`, unless a list would have to be built that cannot exist. -/
def normalize? (payload : Payload) : Option Payload :=
  if payload.buildable then some payload.normalize else none

end Payload

end TraceLog
