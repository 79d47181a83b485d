import TraceLog.Store.FileTree

/-!
# TraceLog.Store.Disk

A file tree whose calls may also fail by themselves.

`Disk.faults` says of every call, by its number, whether it fails whatever the
tree holds; `Disk.quiet` is the disk on which none does.  A call that fails
leaves the tree as it was.  `FileAction` is what does some calls in turn: it
ends with a value or a fault, and the disk as the calls left it.
-/

namespace TraceLog

/-- The calls on files. -/
inductive Call where
  | length (r : Route)
  | lengthOf (place : Place)
  | openForAppend (r : Route)
  | append (place : Place)
  | remove (r : Route)
  | rename (old new : Route)
  | makeDirectory (r : Route)
  | isDirectory (r : Route)
  deriving DecidableEq, Repr

/-- A file tree whose calls may fail by themselves. -/
structure Disk where
  tree : FileTree
  /-- How many calls have been made. -/
  calls : Nat
  /-- The fault of a call that fails by itself. -/
  faults : Nat → Call → Option SystemFault

/-- Calls on a disk in turn. -/
abbrev FileAction (α : Type) := ExceptT SystemFault (StateM Disk) α

namespace Disk

/-- The disk of a tree on which no call fails by itself. -/
def quiet (tree : FileTree) : Disk := ⟨tree, 0, fun _ _ => none⟩

/-- Makes a call, which fails by itself or does what it does to the tree. -/
def call {α : Type} (c : Call) (run : FileTree → Except SystemFault (α × FileTree)) :
    FileAction α := fun d =>
  let after := { d with calls := d.calls + 1 }
  match d.faults d.calls c with
  | some fault => (.error fault, after)
  | none =>
    match run d.tree with
    | .error fault => (.error fault, after)
    | .ok (value, tree) => (.ok value, { after with tree })

/-- Makes a call that only looks. -/
def query {α : Type} (c : Call) (look : FileTree → Except SystemFault α) : FileAction α :=
  call c fun t => (look t).map (·, t)

/-- Makes a call that only changes the tree. -/
def change (c : Call) (run : FileTree → Except SystemFault FileTree) : FileAction Unit :=
  call c fun t => (run t).map ((), ·)

/-- What came of an action, also of one that failed. -/
def outcome {α : Type} (action : FileAction α) : FileAction (Except SystemFault α) := fun d =>
  let (result, d) := action d
  (.ok result, d)

/-- An action whose outcome is asked for never fails. -/
theorem run_outcome {α : Type} (action : FileAction α) (d : Disk) :
    outcome action d = (.ok (action d).1, (action d).2) := rfl

end Disk

namespace FileAction

open Disk

/-! ## Actions in turn -/

/-- An action followed by one that depends on its value. -/
theorem run_bind {α β : Type} (a : FileAction α) (f : α → FileAction β) (d : Disk) :
    (a >>= f) d = match a d with
      | (.ok x, d) => f x d
      | (.error fault, d) => (.error fault, d) := by
  show (ExceptT.bind a f) d = _
  simp only [ExceptT.bind, ExceptT.mk, bind, StateT.bind, ExceptT.bindCont]
  rcases a d with ⟨_ | _, d'⟩ <;> rfl

theorem run_pure {α : Type} (x : α) (d : Disk) : (pure x : FileAction α) d = (.ok x, d) := rfl

theorem run_throw {α : Type} (fault : SystemFault) (d : Disk) :
    (throw fault : FileAction α) d = (.error fault, d) := rfl

/-! ## Calls -/

/-- The length of what a path leads to. -/
def length (path : String) : FileAction Nat :=
  query (.length (Path.route path)) (·.lengthAt (Path.route path))

/-- Whether a path leads anywhere; not if that cannot be told. -/
def exists? (path : String) : FileAction Bool := do
  match ← outcome (length path) with
  | .ok _ => pure true
  | .error _ => pure false

/-- The length of what has been opened. -/
def lengthOf (place : Place) : FileAction Nat :=
  query (.lengthOf place) fun t => .ok (t.lengthOf place)

/-- Opens a file for writing at its end, and creates it if it is missing. -/
def openForAppend (path : String) : FileAction Place :=
  call (.openForAppend (Path.route path)) (·.openForAppend (Path.route path))

/-- Writes at the end of what has been opened. -/
def append (place : Place) (text : String) : FileAction Unit :=
  change (.append place) (·.append place text)

/-- Removes a file. -/
def remove (path : String) : FileAction Unit :=
  change (.remove (Path.route path)) (·.remove (Path.route path))

/-- Renames a file. -/
def rename (old new : String) : FileAction Unit :=
  change (.rename (Path.route old) (Path.route new)) (·.rename (Path.route old) (Path.route new))

/-- Makes a directory, whose parent has to be there. -/
def makeDirectory (r : Route) : FileAction Unit :=
  change (.makeDirectory r) (·.makeDirectory r)

/-- Goes on if the directory that could not be made is there already. -/
def unlessThere (r : Route) (fault : SystemFault) : FileAction Unit := do
  match ← outcome (query (.isDirectory r) fun t => .ok (t.isDirectory r)) with
  | .ok true => pure ()
  | _ => throw fault

/-- Makes a directory unless it is there; `above` makes the directory it is
in, should that be missing. -/
def ensureDirectory (r : Route) (above : FileAction Unit) : FileAction Unit := do
  match ← outcome (makeDirectory r) with
  | .ok () => pure ()
  | .error .missing => do
    above
    match ← outcome (makeDirectory r) with
    | .ok () => pure ()
    | .error fault => unlessThere r fault
  | .error fault => unlessThere r fault

/-- Makes all directories of a way that are missing; the innermost name comes
first.  No directory on the way has a longer path than the innermost one, whose
`size` is given. -/
def makeWay (absolute : Bool) (size : Nat) : List String → FileAction Unit
  | [] => pure ()
  | name :: above =>
    ensureDirectory ⟨absolute, (name :: above).reverse, false, size⟩ (makeWay absolute size above)

/-- Makes the directory that a path names, and those above it. -/
def makeDirectories (path : String) : FileAction Unit :=
  let r := Path.route path
  if r.names = [] then pure ()
  else ensureDirectory r (makeWay r.absolute r.size (Path.parent path).names.reverse)

/-- Makes the directory of the file that a path names, and those above it. -/
def makeParent (path : String) : FileAction Unit :=
  let r := Path.parent path
  makeWay r.absolute r.size r.names.reverse

end FileAction

end TraceLog
