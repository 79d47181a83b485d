import TraceLog.Store.Fault
import TraceLog.Store.Path

/-!
# TraceLog.Store.FileTree

Directories and files, and the calls on them.

A place is named by the directories that lead to it, the innermost first, so
`name :: dir` is the entry `name` of the directory `dir` and `[]` is the root.
A tree lists what stands at each place.  A path is walked from the root or
from the working directory, and every name on the way has to be a directory.
A path that is too long or holds a NUL is refused before the walk, and a name
that is too long once the walk arrives there.

* `FileTree.node?` — what stands at a place;
* `FileTree.put` / `FileTree.erase` / `FileTree.move` — the changes of a tree;
* `FileTree.lookup` — what a path leads to;
* `FileTree.openForAppend`, `FileTree.append`, `FileTree.remove`,
  `FileTree.rename`, `FileTree.makeDirectory` — the calls, which change the
  tree or report a fault and change nothing.
-/

namespace TraceLog

/-- A place in a tree: the names that lead to it, the innermost first. -/
abbrev Place := List String

/-- What stands at a place. -/
inductive Node where
  | file (content : String)
  | directory
  /-- A device that swallows what is written. -/
  | null
  /-- A device that takes nothing. -/
  | full
  deriving DecidableEq, Repr

/-- Directories and files. -/
structure FileTree where
  nodes : List (Place × Node)
  /-- The working directory. -/
  home : Place
  /-- The length that a directory reports. -/
  directoryLength : Nat
  deriving Repr

namespace FileTree

/-! ## Places -/

/-- What the list says of a place. -/
def find? (nodes : List (Place × Node)) (place : Place) : Option Node :=
  match nodes with
  | [] => none
  | (p, node) :: rest => if place = p then some node else find? rest place

/-- What stands at a place; the root is a directory. -/
def node? (t : FileTree) (place : Place) : Option Node :=
  if place = [] then some .directory else find? t.nodes place

/-- The tree without what stands at a place. -/
def erase (t : FileTree) (place : Place) : FileTree :=
  { t with nodes := t.nodes.filter fun entry => entry.1 != place }

/-- The tree with this at a place. -/
def put (t : FileTree) (place : Place) (node : Node) : FileTree :=
  { t with nodes := (place, node) :: (t.erase place).nodes }

theorem find?_filter (nodes : List (Place × Node)) (p q : Place) :
    find? (nodes.filter fun e => e.1 != p) q = if q = p then none else find? nodes q := by
  induction nodes with
  | nil => simp [find?]
  | cons e rest ih =>
    obtain ⟨r, n⟩ := e
    by_cases h : r = p
    · subst h
      by_cases hq : q = r <;> simp_all [find?]
    · by_cases hq : q = r
      · subst hq
        simp [find?, h]
      · simp [find?, h, hq, ih]

/-- What has been erased is gone, and nothing else. -/
theorem node?_erase (t : FileTree) {p : Place} (hp : p ≠ []) (q : Place) :
    (t.erase p).node? q = if q = p then none else t.node? q := by
  unfold node? erase
  by_cases hq : q = []
  · simp [hq, Ne.symm hp]
  · simp [hq, find?_filter]

/-- What has been put at a place is there, and nothing else has changed. -/
theorem node?_put (t : FileTree) {p : Place} (hp : p ≠ []) (n : Node) (q : Place) :
    (t.put p n).node? q = if q = p then some n else t.node? q := by
  by_cases hq : q = []
  · subst hq; simp [node?, Ne.symm hp]
  · by_cases hqp : q = p
    · subst hqp; simp [node?, put, find?, hq]
    · have := node?_erase t hp q
      simp_all [node?, put, find?]

/-- Whether a place is inside a directory, or is the directory itself. -/
def inside (dir place : Place) : Bool := dir.isSuffixOf place

/-- A place after `old` has moved to `new`, with everything inside. -/
def relocate (old new place : Place) : Place :=
  if inside old place then place.take (place.length - old.length) ++ new else place

/-- The tree after `old` has moved to `new`, in place of what was there. -/
def move (t : FileTree) (old new : Place) : FileTree :=
  { t with
    nodes := (t.erase new).nodes.map fun entry => (relocate old new entry.1, entry.2)
    home := relocate old new t.home }

/-- Whether a directory has entries. -/
def occupied (t : FileTree) (dir : Place) : Bool :=
  t.nodes.any fun entry => inside dir entry.1 && entry.1 != dir

/-! ## Walking -/

/-- Whether a path can be walked at all. -/
def checkPath (r : Route) : Except SystemFault Unit :=
  if r.names.any fun name => decide ('\x00' ∈ name.toList) then .error .nulInside
  else if Path.sizeLimit < r.size then .error .tooLong
  else .ok ()

/-- What a directory has under a name. -/
def entry? (t : FileTree) (dir : Place) (name : String) : Except SystemFault (Option Node) :=
  if Path.nameLimit < name.utf8ByteSize then .error .tooLong else .ok (t.node? (name :: dir))

/-- A path within the limits and without a NUL can be walked. -/
theorem checkPath_eq_ok {r : Route} (hnul : ∀ name ∈ r.names, '\x00' ∉ name.toList)
    (hsize : r.size ≤ Path.sizeLimit) : checkPath r = .ok () := by
  simp only [checkPath, List.any_eq_true, decide_eq_true_eq]
  rw [if_neg fun ⟨name, hname, hmem⟩ => hnul name hname hmem, if_neg (Nat.not_lt.2 hsize)]

/-- A name within the limit is looked up as it is. -/
theorem entry?_eq_ok {t : FileTree} {dir : Place} {name : String}
    (h : name.utf8ByteSize ≤ Path.nameLimit) : t.entry? dir name = .ok (t.node? (name :: dir)) :=
  if_neg (Nat.not_lt.2 h)

/-- Walks through directories. -/
def walk (t : FileTree) (place : Place) : List String → Except SystemFault Place
  | [] => .ok place
  | name :: rest =>
    if name = "." then t.walk place rest
    else if name = ".." then t.walk place.tail rest
    else match t.entry? place name with
      | .error fault => .error fault
      | .ok none => .error .missing
      | .ok (some .directory) => t.walk (name :: place) rest
      | .ok (some _) => .error .throughFile

/-- What the last name of a route is. -/
inductive End where
  /-- A directory, by one of its own names. -/
  | here (dir : Place)
  /-- An entry of a directory. -/
  | entry (name : String) (dir : Place)
  deriving DecidableEq, Repr

/-- Walks a route up to its last name. -/
def approach (t : FileTree) (r : Route) : Except SystemFault End :=
  match checkPath r with
  | .error fault => .error fault
  | .ok () =>
    let start := if r.absolute then [] else t.home
    match r.names.getLast? with
    | none => if r.absolute then .ok (.here []) else .error .missing
    | some name =>
      match t.walk start r.names.dropLast with
      | .error fault => .error fault
      | .ok dir =>
        if name = "." then .ok (.here dir)
        else if name = ".." then .ok (.here dir.tail)
        else .ok (.entry name dir)

/-- What a route leads to. -/
def lookup (t : FileTree) (r : Route) : Except SystemFault (Place × Node) :=
  match t.approach r with
  | .error fault => .error fault
  | .ok (.here dir) => .ok (dir, .directory)
  | .ok (.entry name dir) =>
    match t.entry? dir name with
    | .error fault => .error fault
    | .ok none => .error .missing
    | .ok (some .directory) => .ok (name :: dir, .directory)
    | .ok (some node) => if r.slash then .error .throughFile else .ok (name :: dir, node)

/-- The length that something reports. -/
def length (t : FileTree) : Node → Nat
  | .file content => content.utf8ByteSize
  | .directory => t.directoryLength
  | .null => 0
  | .full => 0

/-! ## Calls -/

/-- The length of what a route leads to. -/
def lengthAt (t : FileTree) (r : Route) : Except SystemFault Nat :=
  match t.lookup r with
  | .error fault => .error fault
  | .ok (_, node) => .ok (t.length node)

/-- The length of what stands at a place that has been opened. -/
def lengthOf (t : FileTree) (place : Place) : Nat := ((t.node? place).map t.length).getD 0

/-- Opens a file for writing at its end, and creates it if it is missing. -/
def openForAppend (t : FileTree) (r : Route) : Except SystemFault (Place × FileTree) :=
  match t.approach r with
  | .error fault => .error fault
  | .ok (.here _) => .error .directory
  | .ok (.entry name dir) =>
    if r.slash then .error .directory
    else match t.entry? dir name with
      | .error fault => .error fault
      | .ok none => .ok (name :: dir, t.put (name :: dir) (.file ""))
      | .ok (some .directory) => .error .directory
      | .ok (some _) => .ok (name :: dir, t)

/-- Writes at the end of what stands at a place that has been opened. -/
def append (t : FileTree) (place : Place) (text : String) : Except SystemFault FileTree :=
  match t.node? place with
  | some (.file content) => .ok (t.put place (.file (content ++ text)))
  | some .full => if text = "" then .ok t else .error .full
  | _ => .ok t

/-- Removes a file. -/
def remove (t : FileTree) (r : Route) : Except SystemFault FileTree :=
  match t.approach r with
  | .error fault => .error fault
  | .ok (.here _) => .error .directory
  | .ok (.entry name dir) =>
    match t.entry? dir name with
    | .error fault => .error fault
    | .ok none => .error .missing
    | .ok (some .directory) => .error .directory
    | .ok (some _) => if r.slash then .error .throughFile else .ok (t.erase (name :: dir))

/-- Moves what stands at `old` to `new`, in place of what is there; only a
directory may have a slash behind its name. -/
def replace (t : FileTree) (old new : Place) (node : Node) (replaced : Option Node)
    (slash : Bool) : Except SystemFault FileTree :=
  let isDirectory := node == .directory
  if slash && !isDirectory then .error .throughFile
  else if old = new then .ok t
  else if inside old new then .error .intoItself
  else if inside new old then .error .occupied
  else match replaced with
    | none => .ok (t.move old new)
    | some .directory =>
      if !isDirectory then .error .directory
      else if t.occupied new then .error .occupied
      else .ok (t.move old new)
    | some _ => if isDirectory then .error .throughFile else .ok (t.move old new)

/-- Renames a file or a directory, in place of what has the new name. -/
def rename (t : FileTree) (old new : Route) : Except SystemFault FileTree := do
  checkPath old
  checkPath new
  match ← t.approach old, ← t.approach new with
  | .entry a d, .entry b e =>
    match ← t.entry? d a with
    | none => .error .missing
    | some node => t.replace (a :: d) (b :: e) node (← t.entry? e b) (old.slash || new.slash)
  | _, _ => .error .busy

/-- Makes a directory. -/
def makeDirectory (t : FileTree) (r : Route) : Except SystemFault FileTree :=
  match t.approach r with
  | .error fault => .error fault
  | .ok (.here _) => .error .taken
  | .ok (.entry name dir) =>
    match t.entry? dir name with
    | .error fault => .error fault
    | .ok none => .ok (t.put (name :: dir) .directory)
    | .ok (some _) => .error .taken

/-- Whether a route leads to a directory. -/
def isDirectory (t : FileTree) (r : Route) : Bool :=
  match t.lookup r with
  | .ok (_, .directory) => true
  | _ => false

/-! ## What the host does -/

/-- Replaces the content of a file, and creates it if it is missing. -/
def overwrite (t : FileTree) (r : Route) (content : String) : Except SystemFault FileTree :=
  match t.openForAppend r with
  | .error fault => .error fault
  | .ok (place, t) =>
    match t.node? place with
    | some (.file _) => .ok (t.put place (.file content))
    | some .full => if content = "" then .ok t else .error .full
    | _ => .ok t

/-- Removes a file, or a directory with everything inside. -/
def removeTree (t : FileTree) (r : Route) : Except SystemFault FileTree :=
  match t.lookup r with
  | .error fault => .error fault
  | .ok (place, _) =>
    .ok { t with nodes := t.nodes.filter fun entry => !inside place entry.1 }

/-! ## Making and listing -/

/-- The tree with directories up to a place. -/
def withDirectories (t : FileTree) : Place → FileTree
  | [] => t
  | name :: dir => (t.withDirectories dir).put (name :: dir) .directory

/-- A tree with an empty working directory, and these devices. -/
def fresh (home : Place) (devices : List (Place × Node)) (directoryLength : Nat) : FileTree :=
  devices.foldl (fun t device => (t.withDirectories device.1.tail).put device.1 device.2)
    (withDirectories ⟨[], home, directoryLength⟩ home)

/-- Everything inside a directory: its path from there, and its content; none
for a directory. -/
def listing (t : FileTree) (dir : Place) : List (String × Option String) :=
  t.nodes.filterMap fun (place, node) =>
    if inside dir place && place != dir then
      let path := "/".intercalate (place.take (place.length - dir.length)).reverse
      match node with
      | .file content => some (path, some content)
      | _ => some (path, none)
    else none

end FileTree

end TraceLog
