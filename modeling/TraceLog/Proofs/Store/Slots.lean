import TraceLog.Proofs.Store.Calls
import TraceLog.Store.Generations

/-!
# TraceLog.Proofs.Store.Slots

What the generations of a file hold.

Every generation has a place of its own, there or not: its slot.  A call on
the path of a generation that succeeds changes that slot, or moves one slot to
another, and leaves the other slots alone.

* `Generations.held` — the content of the file of a generation;
* `Generations.Tidy` — slots hold files that can be read, or directories;
* `Generations.Way` — the directory of the generations can be walked to;
* `Generations.Kept` — what no call takes away;
* `Generations.tidy_of_vacant` — slots in which nothing stands are tidy.
-/

namespace TraceLog

namespace FileTree

/-- The content of the file at a place; none unless a file stands there. -/
def fileAt (t : FileTree) (place : Place) : Option String :=
  match t.node? place with
  | some (.file content) => some content
  | _ => none

theorem fileAt_eq_some {t : FileTree} {place : Place} {content : String} :
    t.fileAt place = some content ↔ t.node? place = some (.file content) := by
  rw [fileAt]
  split
  · next found hfound => simp [hfound]
  · next hother =>
      simp only [reduceCtorEq, false_iff]
      exact hother content

theorem fileAt_congr {t t' : FileTree} {place place' : Place}
    (h : t'.node? place' = t.node? place) : t'.fileAt place' = t.fileAt place := by
  rw [fileAt, fileAt, h]

theorem fileAt_eq_none {t : FileTree} {place : Place} (h : t.node? place = none) :
    t.fileAt place = none := by
  rw [fileAt, h]

end FileTree

/-- The system takes the path and its last name. -/
def Path.Readable (path : String) : Prop :=
  FileTree.checkPath (route path) = .ok () ∧
    ∀ name, (route path).names.getLast? = some name → name.utf8ByteSize ≤ nameLimit

namespace Generations

/-- The place of a generation. -/
def slot (g : Generations) (home : Place) (index : Nat) : Place :=
  Path.place home (Path.route (g.pathOf index))

/-- The content of the file of a generation; none if there is no such file. -/
def held (g : Generations) (t : FileTree) (index : Nat) : Option String :=
  t.fileAt (g.slot t.home index)

/-- The directory of the generations can be walked to. -/
def Way (g : Generations) (t : FileTree) : Prop :=
  ∃ dir, t.walk (Path.origin t.home (Path.route g.path)) (Path.route g.path).names.dropLast =
    .ok dir

/-- The slots hold files that can be read, or directories. -/
def Tidy (g : Generations) (t : FileTree) : Prop :=
  ∀ index node, t.node? (g.slot t.home index) = some node →
    node = .directory ∨ Path.Readable (g.pathOf index) ∧ ∃ content, node = .file content

variable {g : Generations} {t t' : FileTree} {way : List String} {name : String} {i j : Nat}

theorem Tidy.readable (h : g.Tidy t) {content : String} (hheld : g.held t i = some content) :
    Path.Readable (g.pathOf i) := by
  have hnode := FileTree.fileAt_eq_some.1 hheld
  cases h i _ hnode with
  | inl hdirectory => contradiction
  | inr hfile => exact hfile.1

/-! ## Slots -/

theorem slot_eq (h : Path.Named g.path way name) (home : Place) (index : Nat) :
    g.slot home index =
      Path.generation name index :: Path.reach (Path.origin home (Path.route g.path)) way :=
  h.place_generation home index

theorem slot_ne_nil (h : Path.Named g.path way name) (home : Place) (index : Nat) :
    g.slot home index ≠ [] := by
  rw [slot_eq h]
  exact List.cons_ne_nil _ _

/-- No slot is inside another one. -/
theorem inside_slot_iff (h : Path.Named g.path way name) (home : Place) :
    FileTree.inside (g.slot home i) (g.slot home j) = true ↔ i = j := by
  constructor
  · intro hinside
    have hsuffix := List.isSuffixOf_iff_suffix.1 hinside
    rw [slot_eq h, slot_eq h] at hsuffix
    have heq := hsuffix.eq_of_length (by simp)
    rw [List.cons.injEq] at heq
    exact Path.generation_injective heq.1
  · rintro rfl
    exact FileTree.inside_self _

theorem slot_eq_slot_iff (h : Path.Named g.path way name) (home : Place) :
    g.slot home i = g.slot home j ↔ i = j := by
  constructor
  · intro heq
    rw [← inside_slot_iff h home, heq]
    exact FileTree.inside_self _
  · rintro rfl
    rfl

/-- The slots stay where they are, also if the working directory is inside one
that moves: then the path leads up from there. -/
theorem slot_relocate (h : Path.Named g.path way name) (home : Place) (i j k : Nat) :
    g.slot (FileTree.relocate (g.slot home i) (g.slot home j) home) k = g.slot home k := by
  by_cases hinside : FileTree.inside (g.slot home i) home = true
  · obtain ⟨above, hhome⟩ := List.isSuffixOf_iff_suffix.1 hinside
    have hmoved : FileTree.relocate (g.slot home i) (g.slot home j) home =
        above ++ g.slot home j := by
      have happend := FileTree.relocate_append above (g.slot home i) (g.slot home j)
      rwa [hhome] at happend
    have hreach : Path.reach (Path.origin (above ++ g.slot home j) (Path.route g.path)) way =
        Path.reach (Path.origin home (Path.route g.path)) way := by
      by_cases habsolute : (Path.route g.path).absolute = true
      · rw [Path.origin, if_pos habsolute, Path.origin, if_pos habsolute]
      · rw [slot_eq h] at hhome ⊢
        rw [Path.origin, if_neg habsolute] at hhome ⊢
        rw [Path.origin, if_neg habsolute]
        exact Path.reach_eq_above (by rw [hhome]) _
    rw [hmoved, slot_eq h _ k, hreach, ← slot_eq h]
  · rw [FileTree.relocate_of_not_inside _ hinside]

/-! ## Approaching a slot -/

/-- What was approached by the path of a generation is its slot, and then the
directory of the generations can be walked to. -/
theorem slot_of_approach (h : Path.Named g.path way name) {last : String} {dir : Place}
    (happroach : t.approach (Path.route (g.pathOf i)) = .ok (.entry last dir)) :
    last :: dir = g.slot t.home i ∧ g.Way t ∧ (last.utf8ByteSize ≤ Path.nameLimit →
      Path.Readable (g.pathOf i)) := by
  obtain ⟨hcheck, names, hnames, -, -, hwalk⟩ := FileTree.approach_eq_entry happroach
  refine ⟨(FileTree.place_of_approach happroach).symm, ⟨dir, ?_⟩, ?_⟩
  · have hway : names = way := by
      rw [pathOf, h.names_generation] at hnames
      exact (List.append_inj' hnames rfl).1.symm
    rw [pathOf, Path.origin_generation] at hwalk
    rw [h.names_eq, List.dropLast_concat, ← hway]
    exact hwalk
  · intro hsize
    refine ⟨hcheck, ?_⟩
    intro other hother
    rw [hnames, List.getLast?_concat, Option.some.injEq] at hother
    exact hother ▸ hsize

/-- The path of a generation is approached at its slot, once the directory of
the generations can be walked to. -/
theorem exists_approach_of_checkPath (h : Path.Named g.path way name) (hway : g.Way t)
    (hcheck : FileTree.checkPath (Path.route (g.pathOf i)) = .ok ()) :
    ∃ dir, Path.generation name i :: dir = g.slot t.home i ∧
      t.approach (Path.route (g.pathOf i)) = .ok (.entry (Path.generation name i) dir) := by
  obtain ⟨dir, hwalk⟩ := hway
  obtain ⟨hhere, habove⟩ := h.generation_ne i
  have hnames : (Path.route (g.pathOf i)).names = way ++ [Path.generation name i] :=
    h.names_generation i
  have hdir : dir = Path.reach (Path.origin t.home (Path.route g.path)) way := by
    rw [FileTree.walk_eq_ok hwalk, h.names_eq, List.dropLast_concat]
  rw [h.names_eq, List.dropLast_concat, ← Path.origin_generation t.home g.path i,
    Path.origin] at hwalk
  refine ⟨dir, by rw [slot_eq h, hdir], ?_⟩
  rw [FileTree.approach, hcheck]
  dsimp only
  rw [hnames, List.getLast?_concat]
  dsimp only
  rw [List.dropLast_concat, pathOf, hwalk]
  simp [hhere, habove]

theorem exists_approach (h : Path.Named g.path way name) (hway : g.Way t)
    (hreadable : Path.Readable (g.pathOf i)) :
    ∃ dir, Path.generation name i :: dir = g.slot t.home i ∧
      (Path.generation name i).utf8ByteSize ≤ Path.nameLimit ∧
      t.approach (Path.route (g.pathOf i)) = .ok (.entry (Path.generation name i) dir) := by
  obtain ⟨dir, hslot, happroach⟩ := exists_approach_of_checkPath h hway hreadable.1
  have hlast : (Path.route (g.pathOf i)).names.getLast? = some (Path.generation name i) := by
    rw [pathOf, h.names_generation, List.getLast?_concat]
  exact ⟨dir, hslot, hreadable.2 _ hlast, happroach⟩

/-- A file of a generation that can be read is found, once its directory can
be walked to. -/
theorem exists_lookup (h : Path.Named g.path way name) (hway : g.Way t)
    (hreadable : Path.Readable (g.pathOf i)) {content : String}
    (hheld : g.held t i = some content) :
    ∃ place, t.lookup (Path.route (g.pathOf i)) = .ok (place, .file content) := by
  obtain ⟨dir, hslot, hsize, happroach⟩ := exists_approach h hway hreadable
  have hnode := FileTree.fileAt_eq_some.1 hheld
  rw [← hslot] at hnode
  refine ⟨Path.generation name i :: dir, ?_⟩
  rw [FileTree.lookup, happroach]
  dsimp only
  rw [FileTree.entry?_eq_ok hsize, hnode]
  dsimp only
  rw [pathOf, h.slash_generation]
  rfl

/-- What is found under the path of a generation stands in its slot. -/
theorem slot_of_lookup (h : Path.Named g.path way name) {place : Place} {node : Node}
    (hlookup : t.lookup (Path.route (g.pathOf i)) = .ok (place, node)) :
    t.node? (g.slot t.home i) = some node ∧ g.Way t ∧ Path.Readable (g.pathOf i) := by
  rcases FileTree.lookup_eq_ok hlookup with ⟨dir, happroach, -⟩ | ⟨last, dir, happroach, hentry⟩
  · exact absurd happroach (FileTree.approach_ne_here h i dir)
  · obtain ⟨hslot, hway, hreadable⟩ := slot_of_approach h happroach
    obtain ⟨rfl, hsize, hnode, -⟩ := hentry
    exact ⟨hslot ▸ hnode, hway, hreadable hsize⟩

/-- A generation that is missing could be read, and nothing stands in its slot,
once the directory of the generations can be walked to. -/
theorem slot_of_missing (h : Path.Named g.path way name) (hway : g.Way t)
    (hlookup : t.lookup (Path.route (g.pathOf i)) = .error .missing) :
    t.node? (g.slot t.home i) = none ∧ Path.Readable (g.pathOf i) := by
  have hcheck : FileTree.checkPath (Path.route (g.pathOf i)) = .ok () := by
    cases hcheck : FileTree.checkPath (Path.route (g.pathOf i)) with
    | ok => rfl
    | error fault =>
        rw [FileTree.lookup, FileTree.approach, hcheck, Except.error.injEq] at hlookup
        rw [FileTree.checkPath, hlookup] at hcheck
        grind
  obtain ⟨dir, hslot, happroach⟩ := exists_approach_of_checkPath h hway hcheck
  obtain ⟨-, -, hreadable⟩ := slot_of_approach h happroach
  rw [FileTree.lookup, happroach] at hlookup
  dsimp only at hlookup
  split at hlookup
  · next fault hentry =>
      rw [Except.error.injEq] at hlookup
      rw [FileTree.entry?, hlookup] at hentry
      grind
  · next hentry =>
      obtain ⟨hsize, hnode⟩ := FileTree.entry?_eq_ok_iff.1 hentry
      exact ⟨hslot ▸ hnode, hreadable hsize⟩
  · contradiction
  · split at hlookup
    · simp at hlookup
    · contradiction

/-- A generation that is not found holds nothing, if its directory can be
walked to. -/
theorem held_eq_none_of_lookup (h : Path.Named g.path way name) (htidy : g.Tidy t)
    (hway : g.Way t) {fault : SystemFault}
    (hlookup : t.lookup (Path.route (g.pathOf i)) = .error fault) : g.held t i = none := by
  cases hheld : g.held t i with
  | none => rfl
  | some content =>
      obtain ⟨place, hplace⟩ := exists_lookup h hway (htidy.readable hheld) hheld
      rw [hplace] at hlookup
      contradiction

/-- The length that a generation is said to have is that of its content. -/
theorem length_eq_of_held (h : Path.Named g.path way name) {content : String}
    (hheld : g.held t i = some content) {length : Nat}
    (hlength : t.lengthAt (Path.route (g.pathOf i)) = .ok length) :
    length = content.utf8ByteSize := by
  rw [FileTree.lengthAt] at hlength
  cases hlookup : t.lookup (Path.route (g.pathOf i)) with
  | error fault => simp [hlookup] at hlength
  | ok found =>
      obtain ⟨place, node⟩ := found
      obtain ⟨hnode, -, -⟩ := slot_of_lookup h hlookup
      rw [FileTree.fileAt_eq_some.1 hheld, Option.some.injEq] at hnode
      simpa [hlookup, ← hnode, FileTree.length, eq_comm] using hlength

/-! ## What no call takes away -/

/-- The slots are where they were and still tidy, the faults are as before, and
the directory of the generations could be walked to if it still can. -/
structure Kept (g : Generations) (d d' : Disk) : Prop where
  slot_eq : ∀ index, g.slot d'.tree.home index = g.slot d.tree.home index
  faults_eq : d'.faults = d.faults
  tidy : g.Tidy d'.tree
  way : g.Way d'.tree → g.Way d.tree

theorem Kept.trans {d d' d'' : Disk} (h : g.Kept d d') (h' : g.Kept d' d'') : g.Kept d d'' :=
  ⟨fun k => (h'.slot_eq k).trans (h.slot_eq k), h'.faults_eq.trans h.faults_eq, h'.tidy,
    h.way ∘ h'.way⟩

theorem Kept.of_tree_eq {d d' : Disk} (htidy : g.Tidy d.tree) (htree : d'.tree = d.tree)
    (hfaults : d'.faults = d.faults) : g.Kept d d' :=
  ⟨fun k => by rw [htree], hfaults, htree ▸ htidy, fun h => htree ▸ h⟩

/-! ## Trees that agree on the slots -/

/-- Slots in which nothing stands are tidy. -/
theorem tidy_of_vacant (hvacant : ∀ k, t.node? (g.slot t.home k) = none) : g.Tidy t := by
  intro k node hnode
  rw [hvacant] at hnode
  simp at hnode

/-- What is done elsewhere leaves the generations alone, and so do directories
that are added. -/
theorem tidy_of_node?_eq (htidy : g.Tidy t) (hhome : t'.home = t.home)
    (hnode : ∀ k, t'.node? (g.slot t.home k) = t.node? (g.slot t.home k) ∨
      (t.node? (g.slot t.home k) = none ∧ t'.node? (g.slot t.home k) = some .directory)) :
    g.Tidy t' ∧ ∀ j, g.held t' j = g.held t j := by
  have hheld : ∀ j, g.held t' j = g.held t j := by
    intro j
    rw [held, hhome]
    cases hnode j with
    | inl hsame => exact FileTree.fileAt_congr hsame
    | inr hmade => rw [held, FileTree.fileAt_eq_none hmade.1, FileTree.fileAt, hmade.2]
  refine ⟨?_, hheld⟩
  intro k node hfound
  rw [hhome] at hfound
  cases hnode k with
  | inl hsame =>
      rw [hsame] at hfound
      exact htidy k node hfound
  | inr hmade =>
      rw [hmade.2, Option.some.injEq] at hfound
      exact .inl hfound.symm

/-! ## Calls on the path of a generation -/

/-- A generation under which a file was put holds what the file holds, and the
others are as before. -/
theorem held_put (h : Path.Named g.path way name) (htidy : g.Tidy t)
    (hreadable : Path.Readable (g.pathOf i)) {content : String}
    (htree : t' = t.put (g.slot t.home i) (.file content)) :
    t'.home = t.home ∧ g.Tidy t' ∧
      ∀ j, g.held t' j = if j = i then some content else g.held t j := by
  have hhome : t'.home = t.home := by rw [htree]; rfl
  have hnode : ∀ j, t'.node? (g.slot t.home j) =
      if j = i then some (.file content) else t.node? (g.slot t.home j) := by
    intro j
    rw [htree, FileTree.node?_put _ (slot_ne_nil h _ _)]
    simp only [slot_eq_slot_iff h]
  have hheld : ∀ j, g.held t' j = if j = i then some content else g.held t j := by
    intro j
    have hj := hnode j
    rw [held, hhome]
    split
    · next hji => exact FileTree.fileAt_eq_some.2 (by rw [hj, if_pos hji])
    · next hji => exact FileTree.fileAt_congr (by rw [hj, if_neg hji])
  refine ⟨hhome, ?_, hheld⟩
  intro j found hfound
  rw [hhome, hnode] at hfound
  split at hfound
  · next hji => exact .inr ⟨hji ▸ hreadable, content, (Option.some.inj hfound).symm⟩
  · exact htidy j found hfound

variable {d d' : Disk}

/-- A generation that was removed is gone, and all else is as before. -/
theorem node?_of_remove (h : Path.Named g.path way name)
    (hrun : FileAction.remove (g.pathOf i) d = (.ok (), d')) :
    g.Way d.tree ∧ d'.faults = d.faults ∧ d'.tree.home = d.tree.home ∧
      ∀ q, d'.tree.node? q = if q = g.slot d.tree.home i then none else d.tree.node? q := by
  obtain ⟨hremove, hfaults⟩ := Disk.change_eq_ok hrun
  obtain ⟨last, dir, node, happroach, -, -, -, htree⟩ := FileTree.remove_eq_ok hremove
  obtain ⟨hslot, hway, -⟩ := slot_of_approach h happroach
  rw [hslot] at htree
  refine ⟨hway, hfaults, by rw [htree]; rfl, fun q => ?_⟩
  rw [htree, FileTree.node?_erase _ (slot_ne_nil h _ _)]

/-- A generation that was removed holds nothing, and the others are as
before. -/
theorem remove_eq_ok (h : Path.Named g.path way name) (htidy : g.Tidy d.tree)
    (hrun : FileAction.remove (g.pathOf i) d = (.ok (), d')) :
    g.Kept d d' ∧ g.Way d.tree ∧
      ∀ j, g.held d'.tree j = if j = i then none else g.held d.tree j := by
  obtain ⟨hway, hfaults, hhome, hremoved⟩ := node?_of_remove h hrun
  have hnode : ∀ j, d'.tree.node? (g.slot d.tree.home j) =
      if j = i then none else d.tree.node? (g.slot d.tree.home j) := by
    intro j
    rw [hremoved]
    simp only [slot_eq_slot_iff h]
  have hheld : ∀ j, g.held d'.tree j = if j = i then none else g.held d.tree j := by
    intro j
    have hj := hnode j
    rw [held, hhome]
    split
    · next hji => exact FileTree.fileAt_eq_none (by rw [hj, if_pos hji])
    · next hji => exact FileTree.fileAt_congr (by rw [hj, if_neg hji])
  refine ⟨⟨fun k => by rw [hhome], hfaults, ?_, fun _ => hway⟩, hway, hheld⟩
  intro j found hfound
  rw [hhome, hnode] at hfound
  split at hfound
  · simp at hfound
  · exact htidy j found hfound

/-- A generation that was renamed has moved to the new slot. -/
theorem tree_of_rename (h : Path.Named g.path way name) (hij : i ≠ j)
    (hrun : FileAction.rename (g.pathOf i) (g.pathOf j) d = (.ok (), d')) :
    g.Way d.tree ∧ d'.faults = d.faults ∧ Path.Readable (g.pathOf j) ∧
      d'.tree = d.tree.move (g.slot d.tree.home i) (g.slot d.tree.home j) := by
  obtain ⟨hrename, hfaults⟩ := Disk.change_eq_ok hrun
  obtain ⟨a, dir, b, dir', node, hold, hnew, -, -, hsize, hmoved⟩ := FileTree.rename_eq_ok hrename
  obtain ⟨hslot, hway, -⟩ := slot_of_approach h hold
  obtain ⟨hslot', -, hreadable⟩ := slot_of_approach h hnew
  rw [hslot, hslot'] at hmoved
  rcases hmoved with ⟨heq, -⟩ | ⟨-, -, -, htree⟩
  · exact absurd ((slot_eq_slot_iff h _).1 heq) hij
  · exact ⟨hway, hfaults, hreadable hsize, htree⟩

/-- A generation that was renamed holds nothing, the new one holds what it
held, and the others are as before. -/
theorem rename_eq_ok (h : Path.Named g.path way name) (htidy : g.Tidy d.tree) (hij : i ≠ j)
    (hrun : FileAction.rename (g.pathOf i) (g.pathOf j) d = (.ok (), d')) :
    g.Kept d d' ∧ g.Way d.tree ∧
      ∀ k, g.held d'.tree k =
        if k = j then g.held d.tree i else if k = i then none else g.held d.tree k := by
  obtain ⟨hway, hfaults, hreadable, htree⟩ := tree_of_rename h hij hrun
  have hne := mt (slot_eq_slot_iff h d.tree.home).1 hij
  have hapart := mt (inside_slot_iff h d.tree.home).1 (Ne.symm hij)
  have hslots : ∀ k, g.slot d'.tree.home k = g.slot d.tree.home k := by
    intro k
    rw [htree]
    exact slot_relocate h d.tree.home i j k
  have hnode : ∀ k, d'.tree.node? (g.slot d.tree.home k) =
      if k = j then d.tree.node? (g.slot d.tree.home i)
      else if k = i then none else d.tree.node? (g.slot d.tree.home k) := by
    intro k
    rw [htree, FileTree.node?_move d.tree (slot_ne_nil h _ _) (slot_ne_nil h _ _) hne hapart
      (fun hin => by rw [(inside_slot_iff h _).1 hin])
      fun hin => by rw [(inside_slot_iff h _).1 hin]]
    simp only [slot_eq_slot_iff h]
  have hheld : ∀ k, g.held d'.tree k =
      if k = j then g.held d.tree i else if k = i then none else g.held d.tree k := by
    intro k
    have hk := hnode k
    rw [held, hslots]
    split
    · next hkj => exact FileTree.fileAt_congr (by rw [hk, if_pos hkj])
    · next hkj =>
        split
        · next hki => exact FileTree.fileAt_eq_none (by rw [hk, if_neg hkj, if_pos hki])
        · next hki => exact FileTree.fileAt_congr (by rw [hk, if_neg hkj, if_neg hki])
  refine ⟨⟨hslots, hfaults, ?_, fun _ => hway⟩, hway, hheld⟩
  intro k found hfound
  rw [hslots, hnode] at hfound
  split at hfound
  · next hkj =>
      cases htidy i found hfound with
      | inl hdirectory => exact .inl hdirectory
      | inr hfile => exact .inr ⟨hkj ▸ hreadable, hfile.2⟩
  · split at hfound
    · simp at hfound
    · exact htidy k found hfound

end Generations

end TraceLog
