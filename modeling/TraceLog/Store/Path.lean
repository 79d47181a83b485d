import TraceLog.Number.Format

/-!
# TraceLog.Store.Path

Paths to files.

A path is kept as its text.  `Path.route` takes it apart: where it starts, the
names between its slashes, whether it ends in a slash, and how long it is.  The
name `.` stands for the directory it is in, and `..` for the one above.

* `Path.fileName?` — the file that a path names;
* `Path.parent` — the route to the directory of that file;
* `Path.generation` — the path of an older file, numbered behind a point.
-/

namespace TraceLog

/-- A path taken apart. -/
structure Route where
  /-- Whether the path starts at the root. -/
  absolute : Bool
  /-- The names on the way, `.` and `..` among them. -/
  names : List String
  /-- Whether a slash follows the last name. -/
  slash : Bool
  /-- How many bytes the path has. -/
  size : Nat
  deriving DecidableEq, Repr

namespace Path

/-- How many bytes a path may have. -/
def sizeLimit : Nat := 4095

/-- How many bytes a name may have. -/
def nameLimit : Nat := 255

/-- The parts of a text between its slashes. -/
def parts : List Char → List (List Char)
  | [] => [[]]
  | c :: cs =>
    if c = '/' then [] :: parts cs
    else match parts cs with
      | part :: rest => (c :: part) :: rest
      | [] => [[c]]

/-- The route of a path.  Several slashes in a row are one. -/
def route (path : String) : Route where
  absolute := path.toList.head? == some '/'
  names := ((parts path.toList).filter fun part => !part.isEmpty).map String.ofList
  slash := path.toList.getLast? == some '/'
  size := path.utf8ByteSize

/-- The names of a path that lead anywhere. -/
def names (path : String) : List String := (route path).names.filter (· != ".")

/-- The name of the file that a path names; none if the path leads up or
nowhere. -/
def fileName? (path : String) : Option String :=
  match (names path).getLast? with
  | some name => if name = ".." then none else some name
  | none => none

/-- Parts up to the last one that leads anywhere. -/
def trimmed (parts : List (List Char)) : List (List Char) :=
  (parts.reverse.dropWhile fun part => part == [] || part == ['.']).reverse

/-- The text of a path in front of the file that it names. -/
def parentText (path : String) : String :=
  String.ofList (['/'].intercalate (trimmed (trimmed (parts path.toList)).dropLast))

/-- The route to the directory of the file that a path names. -/
def parent (path : String) : Route where
  absolute := (route path).absolute
  names := (names path).dropLast
  slash := false
  size := (parentText path).utf8ByteSize

/-- The path of a generation of files.  Generation `0` is the path itself;
older ones carry their number behind it. -/
def generation (path : String) (index : Nat) : String :=
  if index = 0 then path else path ++ "." ++ String.ofList (decimal index)

/-! ## Small lemmas -/

theorem parts_ne_nil (cs : List Char) : parts cs ≠ [] := by
  cases cs with
  | nil => simp [parts]
  | cons c cs =>
    unfold parts
    split
    · simp
    · split <;> simp

/-- No part holds a slash. -/
theorem slash_notMem_of_mem_parts {cs part : List Char} (h : part ∈ parts cs) : '/' ∉ part := by
  induction cs generalizing part with
  | nil => simp_all [parts]
  | cons c cs ih =>
    unfold parts at h
    split at h
    · rcases List.mem_cons.1 h with rfl | h
      · simp
      · exact ih h
    · next hc =>
      split at h
      · next first rest heq =>
        rcases List.mem_cons.1 h with rfl | h
        · have := ih (heq ▸ List.mem_cons_self)
          simp [this, Ne.symm hc]
        · exact ih (heq ▸ List.mem_cons_of_mem _ h)
      · next heq => exact absurd heq (parts_ne_nil cs)

/-- The parts with slashes between them are the text. -/
theorem intercalate_parts (cs : List Char) : ['/'].intercalate (parts cs) = cs := by
  induction cs with
  | nil => simp [parts]
  | cons c cs ih =>
    unfold parts
    split
    · next hc =>
      subst hc
      obtain ⟨p, ps, h⟩ := List.exists_cons_of_ne_nil (parts_ne_nil cs)
      simp [h, List.intercalate] at ih ⊢
      simpa using ih
    · split
      · next p ps h =>
        rw [h] at ih
        cases ps <;> simp_all [List.intercalate, List.intersperse]
      · next h => exact absurd h (parts_ne_nil cs)

@[simp] theorem generation_zero (path : String) : generation path 0 = path := rfl

end Path

end TraceLog
