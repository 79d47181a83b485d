import TraceLog.Proofs.Store.Places
import TraceLog.Store.Generations

/-!
# TraceLog.Proofs.Store.Neighbours

Generations beside the active file.

Settings are checked by the names of a path, while the number of a generation
is put behind its text.  Both agree as long as the text ends in the name of the
file.  If something follows that leads nowhere, a slash or a `.`, then the
number becomes a name of its own, and the generation stands inside what the
path names.

* `Path.Split` — the part of a path behind its last slash;
* `Path.Split.fileName?_generation`, `Path.Split.parent_generation` — the name
  of a generation and the directory that it stands in;
* `Path.Split.suffix_iff` — whether a path ends in the name of its file;
* `Tracing.generation_beside_iff` — exactly then its generations are beside it.
-/

namespace TraceLog

namespace Path

/-! ## Parts that lead anywhere -/

/-- Whether a part of a path leads anywhere. -/
def leads (part : List Char) : Bool := part != [] && part != ['.']

theorem ofList_eq_dot_iff {part : List Char} : String.ofList part = "." ↔ part = ['.'] := by
  rw [← String.toList_inj, String.toList_ofList]
  rfl

/-- The names of a path are its parts that lead anywhere. -/
theorem names_eq (path : String) :
    names path = ((parts path.toList).filter leads).map String.ofList := by
  rw [names, route, List.filter_map, List.filter_filter]
  congr 1
  refine List.filter_congr fun part _ => ?_
  rw [Bool.eq_iff_iff]
  simp [leads, ofList_eq_dot_iff, and_comm]

/-- Parts that end in one that leads anywhere are not trimmed. -/
theorem trimmed_concat {last : List Char} (h : leads last = true) (front : List (List Char)) :
    trimmed (front ++ [last]) = front ++ [last] := by
  simp only [leads, Bool.and_eq_true, bne_iff_ne] at h
  simp [trimmed, h.1, h.2]

/-- A part is an end of the text that it is the last part of. -/
theorem suffix_intercalate (front : List (List Char)) (last : List Char) :
    last <:+ ['/'].intercalate (front ++ [last]) := by
  induction front with
  | nil => simp [List.intercalate]
  | cons part front ih =>
      obtain ⟨next, rest, hrest⟩ := List.exists_cons_of_ne_nil
        (show front ++ [last] ≠ [] by simp)
      rw [List.cons_append, hrest, List.intercalate, List.intersperse_cons_cons, List.flatten_cons,
        List.flatten_cons]
      rw [hrest] at ih
      exact (ih.trans (List.suffix_append _ _)).trans (List.suffix_append _ _)

/-! ## The part behind the last slash -/

/-- The path has these parts, and `last` is the one that a text without slashes
behind the path goes to. -/
structure Split (path : String) (front : List (List Char)) (last : List Char) : Prop where
  parts_append : ∀ more, '/' ∉ more → parts (path.toList ++ more) = front ++ [last ++ more]

theorem exists_split (path : String) : ∃ front last, Split path front last := by
  obtain ⟨front, last, -, hparts⟩ := exists_parts_append path.toList
  exact ⟨front, last, ⟨hparts⟩⟩

namespace Split

variable {path name : String} {front : List (List Char)} {last : List Char} {index : Nat}

theorem parts_eq (h : Split path front last) : parts path.toList = front ++ [last] := by
  simpa using h.parts_append [] (by simp)

theorem parts_generation (h : Split path front last) (index : Nat) :
    parts (generation path index).toList = front ++ [last ++ suffix index] := by
  rw [toList_generation]
  exact h.parts_append _ (slash_notMem_suffix index)

theorem ofList_generation (last : List Char) (index : Nat) :
    String.ofList (last ++ suffix index) = generation (String.ofList last) index := by
  rw [← String.toList_inj, toList_generation]
  simp

/-- A part with a number behind it leads somewhere. -/
theorem leads_append_suffix (last : List Char) (hindex : index ≠ 0) :
    leads (last ++ suffix index) = true := by
  obtain ⟨hhere, -⟩ := generation_ne_of_ne_zero (String.ofList last) hindex
  rw [← ofList_generation, ne_eq, ofList_eq_dot_iff] at hhere
  have hne : last ++ suffix index ≠ [] := by simp [suffix, hindex]
  rw [leads, Bool.and_eq_true, bne_iff_ne, bne_iff_ne]
  exact ⟨hne, hhere⟩

/-- The names of a generation end in the last part with its number. -/
theorem names_generation (h : Split path front last) (hindex : index ≠ 0) :
    names (generation path index) =
      (front.filter leads).map String.ofList ++ [generation (String.ofList last) index] := by
  rw [names_eq, h.parts_generation, List.filter_append,
    List.filter_cons_of_pos (leads_append_suffix last hindex), List.map_append, List.filter_nil,
    List.map_singleton, ofList_generation]

/-- **The file of a generation** has the number in its name. -/
theorem fileName?_generation (h : Split path front last) (hindex : index ≠ 0) :
    fileName? (generation path index) = some (generation (String.ofList last) index) := by
  rw [fileName?, h.names_generation hindex, List.getLast?_concat]
  exact if_neg (generation_ne_of_ne_zero _ hindex).2

/-- **A generation stands in the directory** that the other parts lead to. -/
theorem parent_generation (h : Split path front last) (hindex : index ≠ 0) :
    parent (generation path index) =
      ⟨(route path).absolute, (front.filter leads).map String.ofList, false,
        (String.ofList (['/'].intercalate (trimmed front))).utf8ByteSize⟩ := by
  rw [parent, absolute_generation, h.names_generation hindex, List.dropLast_concat, parentText,
    h.parts_generation, trimmed_concat (leads_append_suffix last hindex), List.dropLast_concat]

/-! ## The path itself -/

/-- If the last part leads anywhere, then it is the file, and the others lead to
the directory of the file. -/
theorem parent_of_leads (h : Split path front last) (hleads : leads last = true) :
    parent path = ⟨(route path).absolute, (front.filter leads).map String.ofList, false,
      (String.ofList (['/'].intercalate (trimmed front))).utf8ByteSize⟩ := by
  rw [parent, names_eq, h.parts_eq, List.filter_append, List.filter_cons_of_pos hleads,
    List.filter_nil, List.map_append, List.map_singleton, List.dropLast_concat, parentText,
    h.parts_eq, trimmed_concat hleads, List.dropLast_concat]

theorem eq_of_leads (h : Split path front last) (hleads : leads last = true)
    (hname : fileName? path = some name) : name = String.ofList last := by
  rw [fileName?, names_eq, h.parts_eq, List.filter_append, List.filter_cons_of_pos hleads,
    List.filter_nil, List.map_append, List.map_singleton, List.getLast?_concat] at hname
  dsimp only at hname
  split at hname
  · contradiction
  · exact (Option.some.inj hname).symm

/-- If the last part leads nowhere, then the other parts lead to all that the
path names. -/
theorem names_of_not_leads (h : Split path front last) (hleads : ¬leads last = true) :
    names path = (front.filter leads).map String.ofList := by
  rw [names_eq, h.parts_eq, List.filter_append, List.filter_cons_of_neg hleads, List.filter_nil,
    List.append_nil]

/-- The name of a file is one of the names of its path, so it leads somewhere and
holds no slash. -/
theorem of_fileName? (hname : fileName? path = some name) :
    leads name.toList = true ∧ '/' ∉ name.toList := by
  have hmem : name ∈ names path := by
    rw [fileName?] at hname
    split at hname
    · next found hfound =>
        split at hname
        · contradiction
        · exact Option.some.inj hname ▸ List.mem_of_getLast? hfound
    · contradiction
  rw [names_eq] at hmem
  obtain ⟨part, hpart, rfl⟩ := List.mem_map.1 hmem
  rw [List.mem_filter] at hpart
  rw [String.toList_ofList]
  exact ⟨hpart.2, slash_notMem_of_mem_parts hpart.1⟩

/-- **A path ends in the name of its file** exactly if its last part leads
anywhere. -/
theorem suffix_iff (h : Split path front last) (hname : fileName? path = some name) :
    name.toList <:+ path.toList ↔ leads last = true := by
  constructor
  · rintro ⟨before, hbefore⟩
    obtain ⟨hleads, hslash⟩ := of_fileName? hname
    obtain ⟨front', last', -, hparts⟩ := exists_parts_append before
    have hsplit := hparts name.toList hslash
    rw [hbefore, h.parts_eq] at hsplit
    obtain ⟨-, hlast⟩ := List.append_inj' hsplit rfl
    rw [List.cons.injEq] at hlast
    rw [hlast.1]
    -- What stands in front of a name makes it longer, so neither text leads nowhere.
    simp only [leads, Bool.and_eq_true, bne_iff_ne] at hleads ⊢
    cases last' with
    | nil => exact hleads
    | cons c cs =>
        refine ⟨by simp, fun hdot => hleads.1 ?_⟩
        rw [List.cons_append, List.cons.injEq, List.append_eq_nil_iff] at hdot
        exact hdot.2.2
  · intro hleads
    rw [h.eq_of_leads hleads hname, String.toList_ofList]
    have htext := intercalate_parts path.toList
    rw [h.parts_eq] at htext
    exact htext ▸ suffix_intercalate front last

end Split

end Path

namespace Tracing

/-- Settings that are accepted name a file. -/
theorem exists_fileName?_of_validate {t : Tracing} (h : t.validate = .ok ()) :
    ∃ name, Path.fileName? t.path = some name := by
  rw [validate] at h
  split at h
  · contradiction
  · split at h
    · contradiction
    · next hname =>
        rw [Bool.not_eq_true, Option.isNone_eq_false_iff] at hname
        exact Option.isSome_iff_exists.1 hname

/-- **Generations are beside the active file exactly if the path ends in its
name.**  Let settings be accepted.  If the path ends in the name of the file,
then every generation has the same directory, and its name is that of the file
with a point and the number behind it.  Otherwise none has; they stand inside
what the path names, then.  In either case no two indices have one path. -/
theorem generation_beside_iff {t : Tracing} (h : t.validate = .ok ()) :
    ∃ name, Path.fileName? t.path = some name ∧
      (∀ index, index ≠ 0 →
        (Path.parent ((Generations.ofTracing t).pathOf index) = Path.parent t.path ∧
            Path.fileName? ((Generations.ofTracing t).pathOf index) =
              some (name ++ "." ++ String.ofList (decimal index)) ↔
          name.toList <:+ t.path.toList)) ∧
      (¬name.toList <:+ t.path.toList → ∀ index, index ≠ 0 →
        (Path.parent ((Generations.ofTracing t).pathOf index)).absolute =
            (Path.route t.path).absolute ∧
          (Path.parent ((Generations.ofTracing t).pathOf index)).names = Path.names t.path) ∧
      ∀ j k, (Generations.ofTracing t).pathOf j = (Generations.ofTracing t).pathOf k → j = k := by
  obtain ⟨name, hname⟩ := exists_fileName?_of_validate h
  obtain ⟨front, last, hsplit⟩ := Path.exists_split t.path
  have hpath : ∀ index, (Generations.ofTracing t).pathOf index = Path.generation t.path index :=
    fun _ => rfl
  refine ⟨name, hname, fun index hindex => ?_, fun hends index hindex => ?_, fun j k =>
    Path.generation_injective⟩
  · have hnumbered : name ++ "." ++ String.ofList (decimal index) = Path.generation name index :=
      (if_neg hindex).symm
    rw [hpath, hsplit.suffix_iff hname, hnumbered, hsplit.fileName?_generation hindex,
      Option.some.injEq]
    constructor
    · -- The names of a generation and of the file differ in the number only.
      rintro ⟨-, hsame⟩
      have htext := congrArg String.toList hsame
      rw [Path.toList_generation, Path.toList_generation, List.append_cancel_right_eq,
        String.toList_ofList] at htext
      rw [htext]
      exact (Path.Split.of_fileName? hname).1
    · intro hleads
      rw [hsplit.parent_generation hindex, hsplit.parent_of_leads hleads,
        hsplit.eq_of_leads hleads hname]
      exact ⟨rfl, rfl⟩
  · rw [hsplit.suffix_iff hname] at hends
    rw [hpath, hsplit.parent_generation hindex, hsplit.names_of_not_leads hends]
    exact ⟨rfl, rfl⟩

/-- Slashes in a row and a way up, in front of a name that has a number. -/
theorem generation_beside_iff_of_way_up :
    (toFile "a/../b//t.1").validate = .ok () ∧
      Path.parent ((Generations.ofTracing (toFile "a/../b//t.1")).pathOf 10) =
        ⟨false, ["a", "..", "b"], false, 6⟩ ∧
      Path.fileName? ((Generations.ofTracing (toFile "a/../b//t.1")).pathOf 10) =
        some "t.1.10" := by
  have hvalid : (toFile "a/../b//t.1").validate = .ok () := by rfl
  obtain ⟨name, hname, hbeside, -, -⟩ := generation_beside_iff hvalid
  have hends : name = "t.1" := Option.some.inj (hname.symm.trans (by decide +kernel))
  subst hends
  obtain ⟨hparent, hfile⟩ := (hbeside 10 (by decide)).2 (by decide +kernel)
  have hsame : Path.parent (toFile "a/../b//t.1").path = ⟨false, ["a", "..", "b"], false, 6⟩ := by
    decide +kernel
  exact ⟨hvalid, hparent.trans hsame, hfile.trans (by decide +kernel)⟩

/-- Behind a slash, a generation stands in a directory of its own. -/
theorem generation_inside_of_slash :
    (toFile "d/").validate = .ok () ∧ Path.fileName? "d/" = some "d" ∧
      Path.parent "d/" = ⟨false, [], false, 0⟩ ∧
      (Generations.ofTracing (toFile "d/")).pathOf 1 = "d/.1" ∧
      Path.fileName? "d/.1" = some ".1" ∧ Path.parent "d/.1" = ⟨false, ["d"], false, 1⟩ :=
  ⟨by rfl, by decide +kernel⟩

end Tracing

end TraceLog
