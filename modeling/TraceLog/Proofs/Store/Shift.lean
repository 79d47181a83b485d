import Mathlib.Control.Monad.Basic
import TraceLog.Proofs.Store.Grounded
import TraceLog.Proofs.Store.Rotation

/-!
# TraceLog.Proofs.Store.Shift

Moving the generations on, call by call.

The oldest generation moves first, so at any time those from some index on have
moved and the ones before it have not, and the slot of that index is free.  A
call that fails leaves things like that, and the generations stop there; so
nothing is ever overwritten.

* `Generations.Plain` — nothing, or a file that is found, in the slot of a
  generation;
* `Generations.MovedOn` — the generations from an index on have moved on;
* `Generations.Progress` — what has come of moving them on;
* `Generations.progress_rotate` — replacing the active file, with any faults;
* `Generations.rotate_overwrites_nothing` — where the files are afterwards.
-/

namespace TraceLog

namespace Generations

variable {g : Generations} {t t' : FileTree} {d d' : Disk} {way : List String} {name : String}
  {index stop k : Nat}

/-! ## Generations that can be told apart -/

/-- The path of a generation leads to a file. -/
def Found (g : Generations) (t : FileTree) (index : Nat) : Prop :=
  ∃ place content, t.lookup (Path.route (g.pathOf index)) = .ok (place, .file content)

instance (g : Generations) (t : FileTree) (index : Nat) : Decidable (g.Found t index) :=
  match h : t.lookup (Path.route (g.pathOf index)) with
  | .ok (place, .file content) => .isTrue ⟨place, content, h⟩
  | .ok (_, .directory) | .ok (_, .null) | .ok (_, .full) | .error _ =>
    .isFalse (by simp [Found, h])

/-- Nothing stands in the slot of the generation, or a file that its path leads
to. -/
def Plain (g : Generations) (t : FileTree) (index : Nat) : Prop :=
  t.node? (g.slot t.home index) = none ∨ g.Found t index

instance (g : Generations) (t : FileTree) (index : Nat) : Decidable (g.Plain t index) :=
  inferInstanceAs (Decidable (_ ∨ _))

/-- A file that is found stands in its slot, and can be read. -/
theorem Plain.node?_eq (hplain : g.Plain t k) (h : Path.Named g.path way name) :
    t.node? (g.slot t.home k) = none ∨
      (∃ content, t.node? (g.slot t.home k) = some (.file content)) ∧ g.Way t ∧
        Path.Readable (g.pathOf k) := by
  cases hplain with
  | inl hnone => exact .inl hnone
  | inr hfile =>
      obtain ⟨place, content, hlookup⟩ := hfile
      obtain ⟨hnode, hway, hreadable⟩ := slot_of_lookup h hlookup
      exact .inr ⟨⟨content, hnode⟩, hway, hreadable⟩

theorem Plain.ne_directory (hplain : g.Plain t k) (h : Path.Named g.path way name) :
    t.node? (g.slot t.home k) ≠ some .directory := by
  rcases hplain.node?_eq h with hnone | ⟨⟨content, hfile⟩, -⟩
  · simp [hnone]
  · simp [hfile]

/-! ## Slots in trees without anything inside files -/

/-- A generation that was renamed stands in its new slot, and all else is as
before. -/
theorem node?_of_rename (h : Path.Named g.path way name) {i j : Nat} (hij : i ≠ j)
    (hi : d.tree.Bare (g.slot d.tree.home i)) (hj : d.tree.Bare (g.slot d.tree.home j))
    (hhome : ¬FileTree.inside (g.slot d.tree.home i) d.tree.home = true)
    (hrun : FileAction.rename (g.pathOf i) (g.pathOf j) d = (.ok (), d')) :
    d'.tree.home = d.tree.home ∧
      ∀ q, d'.tree.node? q = if q = g.slot d.tree.home j then d.tree.node? (g.slot d.tree.home i)
        else if q = g.slot d.tree.home i then none else d.tree.node? q := by
  obtain ⟨-, -, -, htree⟩ := tree_of_rename h hij hrun
  rw [htree]
  exact ⟨FileTree.relocate_of_not_inside _ hhome, FileTree.node?_move_of_bare
    (slot_ne_nil h _ _) (slot_ne_nil h _ _) (mt (slot_eq_slot_iff h _).1 hij)
    (mt (inside_slot_iff h _).1 hij) (mt (inside_slot_iff h _).1 (Ne.symm hij)) hi hj⟩

/-! ## How far the generations have moved on -/

/-- The generations from `stop` on have moved on by one, the oldest one is
gone, and all else is as before.  The system takes the paths that have been
moved to. -/
structure MovedOn (g : Generations) (stop : Nat) (t t' : FileTree) : Prop where
  home_eq : t'.home = t.home
  node?_slot : ∀ k, k < g.count → t'.node? (g.slot t.home k) =
    if k < stop then t.node? (g.slot t.home k)
    else if k = stop then none
    else t.node? (g.slot t.home (k - 1))
  node?_other : ∀ q, (∀ k, k < g.count → q ≠ g.slot t.home k) → t'.node? q = t.node? q
  readable : ∀ k, stop < k → k < g.count → t.node? (g.slot t.home (k - 1)) ≠ none →
    Path.Readable (g.pathOf k)

theorem MovedOn.refl (g : Generations) (t : FileTree) : g.MovedOn g.count t t :=
  ⟨rfl, fun _ hk => (if_pos hk).symm, fun _ _ => rfl, fun _ hstop hk => by omega⟩

/-- Where there is nothing to move, the slot in front is free, too. -/
theorem MovedOn.of_none (hmoved : g.MovedOn (index + 1) t t')
    (hnone : t.node? (g.slot t.home index) = none) : g.MovedOn index t t' := by
  refine ⟨hmoved.home_eq, fun k hk => ?_, hmoved.node?_other, fun k hstop hk hthere => ?_⟩
  · have hslot := hmoved.node?_slot k hk
    grind
  · refine hmoved.readable k ?_ hk hthere
    by_contra hfirst
    obtain rfl : k = index + 1 := by omega
    exact hthere hnone

/-- The oldest generation was removed. -/
theorem MovedOn.remove (hmoved : g.MovedOn (index + 1) t d.tree) (h : Path.Named g.path way name)
    (hlast : index + 1 = g.count)
    (hrun : FileAction.remove (g.pathOf index) d = (.ok (), d')) :
    g.MovedOn index t d'.tree := by
  obtain ⟨-, -, hhome, hremoved⟩ := node?_of_remove h hrun
  rw [hmoved.home_eq] at hremoved hhome
  refine ⟨hhome, fun k hk => ?_, fun q hq => ?_, fun k hstop hk => by omega⟩
  · have hslot := hmoved.node?_slot k hk
    rw [hremoved]
    simp only [slot_eq_slot_iff h]
    grind
  · rw [hremoved, if_neg (hq index (by omega)), hmoved.node?_other q hq]

/-- Nothing gets inside a slot. -/
theorem MovedOn.bare (hmoved : g.MovedOn stop t t') (h : Path.Named g.path way name)
    (hbare : t.Bare (g.slot t.home k)) : t'.Bare (g.slot t'.home k) := by
  rw [hmoved.home_eq]
  intro q hinside hne
  rw [hmoved.node?_other q, hbare q hinside hne]
  rintro j - rfl
  rw [inside_slot_iff h] at hinside
  exact hne (hinside ▸ rfl)

/-- A generation was renamed, to the free slot behind it. -/
theorem MovedOn.rename (hmoved : g.MovedOn (index + 1) t d.tree) (h : Path.Named g.path way name)
    (hgrounded : t.Grounded) (hplain : ∀ k, k < g.count → g.Plain t k)
    (hroom : index + 1 < g.count)
    (hrun : FileAction.rename (g.pathOf index) (g.pathOf (index + 1)) d = (.ok (), d')) :
    g.MovedOn index t d'.tree := by
  have hdirectory := fun k hk => (hplain k hk).ne_directory h
  have hhome : ¬FileTree.inside (g.slot d.tree.home index) d.tree.home = true := by
    rw [hmoved.home_eq]
    exact hgrounded.not_inside_home (hdirectory index (by omega))
  obtain ⟨hhome', hrenamed⟩ := node?_of_rename h (by omega)
    (hmoved.bare h (hgrounded.bare (hdirectory index (by omega))))
    (hmoved.bare h (hgrounded.bare (hdirectory (index + 1) hroom))) hhome hrun
  rw [hmoved.home_eq] at hrenamed hhome'
  obtain ⟨-, -, hreadable, -⟩ := tree_of_rename h (by omega) hrun
  refine ⟨hhome', fun k hk => ?_, fun q hq => ?_, fun k hstop hk hthere => ?_⟩
  · have hslot := hmoved.node?_slot k hk
    have hfrom := hmoved.node?_slot index (by omega)
    rw [hrenamed]
    simp only [slot_eq_slot_iff h]
    grind
  · rw [hrenamed, if_neg (hq _ hroom), if_neg (hq index (by omega)), hmoved.node?_other q hq]
  · by_cases hfirst : k = index + 1
    · exact hfirst ▸ hreadable
    · exact hmoved.readable k (by omega) hk hthere

/-- The directories are where they were if no slot holds one, before or after,
and all else is as before. -/
theorem directory_iff_of_slots
    (hother : ∀ q, (∀ k, k < g.count → q ≠ g.slot t.home k) → t'.node? q = t.node? q)
    (hbefore : ∀ k, k < g.count → t.node? (g.slot t.home k) ≠ some .directory)
    (hafter : ∀ k, k < g.count → t'.node? (g.slot t.home k) ≠ some .directory) (q : Place) :
    t'.node? q = some .directory ↔ t.node? q = some .directory := by
  by_cases hslot : ∃ k, k < g.count ∧ q = g.slot t.home k
  · obtain ⟨k, hk, rfl⟩ := hslot
    exact iff_of_false (hafter k hk) (hbefore k hk)
  · rw [hother q fun k hk heq => hslot ⟨k, hk, heq⟩]

/-- The directory of the generations is where it was. -/
theorem MovedOn.way_iff (hmoved : g.MovedOn stop t t')
    (hdirectory : ∀ k, k < g.count → t.node? (g.slot t.home k) ≠ some .directory) :
    g.Way t' ↔ g.Way t := by
  have hafter : ∀ k, k < g.count → t'.node? (g.slot t.home k) ≠ some .directory := by
    intro k hk
    have hslot := hmoved.node?_slot k hk
    have hbefore := hdirectory k hk
    have hfront := hdirectory (k - 1) (by omega)
    grind
  have hsame := directory_iff_of_slots hmoved.node?_other hdirectory hafter
  simp only [Way, hmoved.home_eq, FileTree.walk_congr hsame]

/-- A generation that is there and has not moved yet is a file that can be
read. -/
theorem MovedOn.exists_file (hmoved : g.MovedOn stop t t') (h : Path.Named g.path way name)
    (hplain : ∀ k, k < g.count → g.Plain t k) (hk : k < g.count) (hstop : k < stop)
    (hthere : t.node? (g.slot t.home k) ≠ none) :
    (∃ content, t'.node? (g.slot t'.home k) = some (.file content)) ∧ g.Way t' ∧
      Path.Readable (g.pathOf k) := by
  have hslot := hmoved.node?_slot k hk
  rw [if_pos hstop] at hslot
  rw [hmoved.home_eq, hslot, hmoved.way_iff fun k hk => (hplain k hk).ne_directory h]
  cases (hplain k hk).node?_eq h with
  | inl hnone => contradiction
  | inr hfile => exact hfile

/-- A generation that has not moved yet is found exactly if it was there. -/
theorem MovedOn.isOk_lookup (hmoved : g.MovedOn stop t t') (h : Path.Named g.path way name)
    (hplain : ∀ k, k < g.count → g.Plain t k) (hk : k < g.count) (hstop : k < stop) :
    (t'.lookup (Path.route (g.pathOf k))).isOk = true ↔ t.node? (g.slot t.home k) ≠ none := by
  constructor
  · intro hok hnone
    obtain ⟨⟨place, node⟩, hlookup⟩ := exists_of_isOk hok
    obtain ⟨hnode, -, -⟩ := slot_of_lookup h hlookup
    rw [hmoved.home_eq, hmoved.node?_slot k hk, if_pos hstop, hnone] at hnode
    contradiction
  · intro hthere
    obtain ⟨⟨content, hfile⟩, hway, hreadable⟩ := hmoved.exists_file h hplain hk hstop hthere
    obtain ⟨place, hlookup⟩ := exists_lookup h hway hreadable (FileTree.fileAt_eq_some.2 hfile)
    rw [hlookup]
    rfl

/-! ## One step -/

/-- No call has a reason to fail: none fails by itself, the system takes all
paths, and the active file is there. -/
structure Unhindered (g : Generations) (t : FileTree) (d : Disk) : Prop where
  quiet : d.Quiet
  readable : ∀ k, k < g.count → Path.Readable (g.pathOf k)
  active : t.node? (g.slot t.home 0) ≠ none

/-- What has come of moving on the generations of a tree from some index on:
either all of them have moved, or those behind a call that failed. -/
inductive Progress (g : Generations) (t : FileTree) (d : Disk) (stop : Nat) :
    Except SystemFault Unit × Disk → Prop where
  | finished {d' : Disk} (hmoved : g.MovedOn stop t d'.tree) (hfaults : d'.faults = d.faults) :
      Progress g t d stop (.ok (), d')
  | stopped {d' : Disk} {fault : SystemFault} {reached : Nat}
      (hmoved : g.MovedOn reached t d'.tree) (hfaults : d'.faults = d.faults)
      (hreached : stop < reached ∧ reached ≤ g.count) (hcause : ¬g.Unhindered t d) :
      Progress g t d stop (.error fault, d')

theorem Unhindered.of_faults_eq (h : g.Unhindered t d) (hfaults : d'.faults = d.faults) :
    g.Unhindered t d' := ⟨h.quiet.of_faults_eq hfaults, h.readable, h.active⟩

theorem Progress.of_faults_eq {result : Except SystemFault Unit × Disk}
    (h : g.Progress t d' stop result) (hfaults : d'.faults = d.faults) :
    g.Progress t d stop result := by
  cases h with
  | finished hmoved hkept => exact .finished hmoved (hkept.trans hfaults)
  | stopped hmoved hkept hreached hcause =>
      exact .stopped hmoved (hkept.trans hfaults) hreached fun hunhindered =>
        hcause (hunhindered.of_faults_eq hfaults)

/-- A file of a generation that can be read can be removed. -/
theorem exists_remove (h : Path.Named g.path way name) (hway : g.Way t)
    (hreadable : Path.Readable (g.pathOf index)) {content : String}
    (hfile : t.node? (g.slot t.home index) = some (.file content)) :
    ∃ t', t.remove (Path.route (g.pathOf index)) = .ok t' := by
  obtain ⟨dir, hslot, hsize, happroach⟩ := exists_approach h hway hreadable
  have hslash : (Path.route (g.pathOf index)).slash = false := h.slash_generation index
  rw [← hslot] at hfile
  simp [FileTree.remove, happroach, FileTree.entry?_eq_ok hsize, hfile, hslash]

/-- What stands under a path that can be read can be renamed to a free slot. -/
theorem exists_rename (h : Path.Named g.path way name) (hway : g.Way t) {i j : Nat} (hij : i ≠ j)
    (hi : Path.Readable (g.pathOf i)) (hj : Path.Readable (g.pathOf j)) {node : Node}
    (hnode : t.node? (g.slot t.home i) = some node)
    (hfree : t.node? (g.slot t.home j) = none) :
    ∃ t', t.rename (Path.route (g.pathOf i)) (Path.route (g.pathOf j)) = .ok t' := by
  have hne := mt (slot_eq_slot_iff h t.home).1 hij
  have hinto := mt (inside_slot_iff h t.home).1 hij
  have hapart := mt (inside_slot_iff h t.home).1 (Ne.symm hij)
  obtain ⟨dir, hslot, hsize, happroach⟩ := exists_approach h hway hi
  obtain ⟨dir', hslot', hsize', happroach'⟩ := exists_approach h hway hj
  have hslash : (Path.route (g.pathOf i)).slash = false := h.slash_generation i
  have hslash' : (Path.route (g.pathOf j)).slash = false := h.slash_generation j
  rw [← hslot] at hnode hne hinto hapart
  rw [← hslot'] at hfree hne hinto hapart
  simp [FileTree.rename, FileTree.replace, hi.1, hj.1, happroach, happroach',
    FileTree.entry?_eq_ok hsize, FileTree.entry?_eq_ok hsize', hnode, hfree, hslash, hslash', hne,
    hinto, hapart, bind, Except.bind]

/-- The oldest generation is removed; it can be if it is there. -/
theorem progress_remove (h : Path.Named g.path way name)
    (hplain : ∀ k, k < g.count → g.Plain t k) (hmoved : g.MovedOn (index + 1) t d.tree)
    (hlast : index + 1 = g.count)
    (hthere : g.Unhindered t d → t.node? (g.slot t.home index) ≠ none) :
    g.Progress t d index (FileAction.remove (g.pathOf index) d) := by
  rcases hrun : FileAction.remove (g.pathOf index) d with ⟨fault | _, d'⟩
  · obtain ⟨htree, hfaults⟩ := Disk.change_eq_error hrun
    refine .stopped (htree ▸ hmoved) hfaults (by omega) fun hunhindered => ?_
    obtain ⟨⟨content, hfile⟩, hway, hreadable⟩ :=
      hmoved.exists_file h hplain (by omega) (by omega) (hthere hunhindered)
    obtain ⟨after, hremove⟩ := exists_remove h hway hreadable hfile
    rw [hunhindered.quiet.run_eq_error hrun] at hremove
    contradiction
  · exact .finished (hmoved.remove h hlast hrun) (Disk.change_eq_ok hrun).2

/-- A generation is renamed; it can be if it is there. -/
theorem progress_rename (h : Path.Named g.path way name) (hgrounded : t.Grounded)
    (hplain : ∀ k, k < g.count → g.Plain t k) (hmoved : g.MovedOn (index + 1) t d.tree)
    (hroom : index + 1 < g.count)
    (hthere : g.Unhindered t d → t.node? (g.slot t.home index) ≠ none) :
    g.Progress t d index (FileAction.rename (g.pathOf index) (g.pathOf (index + 1)) d) := by
  rcases hrun : FileAction.rename (g.pathOf index) (g.pathOf (index + 1)) d with ⟨fault | _, d'⟩
  · obtain ⟨htree, hfaults⟩ := Disk.change_eq_error hrun
    refine .stopped (htree ▸ hmoved) hfaults (by omega) fun hunhindered => ?_
    obtain ⟨⟨content, hfile⟩, hway, hreadable⟩ :=
      hmoved.exists_file h hplain (by omega) (by omega) (hthere hunhindered)
    have hfree := hmoved.node?_slot (index + 1) hroom
    rw [if_neg (by omega), if_pos rfl, ← hmoved.home_eq] at hfree
    obtain ⟨after, hrename⟩ :=
      exists_rename h hway (by omega) hreadable (hunhindered.readable _ hroom) hfile hfree
    rw [hunhindered.quiet.run_eq_error hrun] at hrename
    contradiction
  · exact .finished (hmoved.rename h hgrounded hplain hroom hrun) (Disk.change_eq_ok hrun).2

/-- **One step** moves one generation on, or it has failed and changed
nothing. -/
theorem progress_advance (h : Path.Named g.path way name) (hgrounded : t.Grounded)
    (hplain : ∀ k, k < g.count → g.Plain t k) (hsight : d.Sighted)
    (hmoved : g.MovedOn (index + 1) t d.tree) (hindex : index < g.count) :
    g.Progress t d index (g.advance index d) := by
  obtain ⟨seen, hexists, htree, hfaults⟩ :=
    FileAction.exists?_eq_of_sighted (g.pathOf index) hsight
  rw [← htree] at hmoved
  have hfound := hmoved.isOk_lookup h hplain hindex (by omega)
  rw [advance, FileAction.run_bind, hexists]
  rw [htree] at hfound
  dsimp only
  by_cases hthere : t.node? (g.slot t.home index) = none
  · rw [if_neg (by rw [hfound]; exact not_not_intro hthere)]
    exact .finished (hmoved.of_none hthere) hfaults
  · rw [if_pos (hfound.2 hthere)]
    by_cases holdest : index = g.count - 1
    · rw [if_pos holdest]
      exact (progress_remove h hplain hmoved (by omega) fun _ => hthere).of_faults_eq hfaults
    · rw [if_neg holdest]
      exact (progress_rename h hgrounded hplain hmoved (by omega) fun _ => hthere).of_faults_eq
        hfaults

/-! ## All steps -/

/-- **The generations down to the first one** move on, or those behind a call
that failed. -/
theorem progress_advanceFrom (h : Path.Named g.path way name) (hgrounded : t.Grounded)
    (hplain : ∀ k, k < g.count → g.Plain t k) (hsight : d.Sighted)
    (hmoved : g.MovedOn (index + 1) t d.tree) (hindex : index < g.count) :
    g.Progress t d 1 (g.advanceFrom index d) := by
  -- The invariant is `hmoved`: the slot behind the next generation is free.
  induction index generalizing d with
  | zero => exact .finished hmoved rfl
  | succ index ih =>
      have hfirst := progress_advance h hgrounded hplain hsight hmoved hindex
      rw [advanceFrom, FileAction.run_bind]
      cases hrun : g.advance (index + 1) d with
      | mk result next =>
          rw [hrun] at hfirst
          cases hfirst with
          | finished hmoved' hfaults =>
              exact (ih (hsight.of_faults_eq hfaults) hmoved' (by omega)).of_faults_eq hfaults
          | stopped hmoved' hfaults hreached hcause =>
              exact .stopped hmoved' hfaults (by omega) hcause

/-! ## Paths without a name -/

/-- What leads to a file has a name. -/
theorem exists_named_of_lookup_file {path : String} {place : Place} {content : String}
    (hlookup : t.lookup (Path.route path) = .ok (place, .file content)) :
    ∃ way name, Path.Named path way name := by
  rcases FileTree.lookup_eq_ok hlookup with ⟨dir, -, hnode⟩ | ⟨last, dir, happroach, hentry⟩
  · contradiction
  · obtain ⟨-, -, -, hslash⟩ := hentry
    rw [or_iff_right (by simp)] at hslash
    exact exists_named_of_approach happroach hslash

/-- If a generation is found, then the path is that of a file or leads to a
directory. -/
theorem exists_named_of_lookup (hgrounded : t.Grounded)
    (hdirectory : t.node? (g.slot t.home 0) ≠ some .directory) {index : Nat} (hindex : index ≠ 0)
    (hfound : (t.lookup (Path.route (g.pathOf index))).isOk = true) :
    ∃ way name, Path.Named g.path way name := by
  obtain ⟨way, last, hpath, hnames⟩ := Path.exists_names_generation g.path
  have hnames : (Path.route (g.pathOf index)).names = way ++ [Path.generation last index] :=
    hnames index hindex
  obtain ⟨hhere, habove⟩ := Path.generation_ne_of_ne_zero last hindex
  obtain ⟨⟨place, node⟩, hlookup⟩ := exists_of_isOk hfound
  have hdir : ∃ dir, t.node? dir = some .directory ∧
      dir = Path.reach (Path.origin t.home (Path.route g.path)) way := by
    rcases FileTree.lookup_eq_ok hlookup with ⟨dir, happroach, -⟩ | ⟨entry, dir, happroach, -⟩
    · exact absurd happroach (FileTree.approach_ne_here_of_names hnames hhere habove dir)
    · obtain ⟨-, names, hsplit, -, -, hwalk⟩ := FileTree.approach_eq_entry happroach
      rw [hnames] at hsplit
      rw [← (List.append_inj' hsplit rfl).1, pathOf, Path.origin_generation] at hwalk
      exact ⟨dir, hgrounded.node?_of_walk (hgrounded.node?_origin _) hwalk,
        FileTree.walk_eq_ok hwalk⟩
  obtain ⟨dir, hnode, rfl⟩ := hdir
  have hslot : g.slot t.home 0 =
      Path.reach (Path.origin t.home (Path.route g.path)) (Path.route g.path).names := rfl
  rw [hslot] at hdirectory
  -- If the last name led nowhere, then the path would lead to the directory of
  -- the generation or the one above.
  rcases hpath with ⟨hlast, hslash⟩ | ⟨hway, -⟩
  · rw [hlast, Path.reach_append] at hdirectory
    refine ⟨way, last, hlast, hslash, ?_, ?_⟩
    · rintro rfl
      exact hdirectory hnode
    · rintro rfl
      exact hdirectory (hgrounded.parent hnode)
  · rw [hway] at hdirectory
    exact absurd hnode hdirectory

/-- Generations that are not found stay where they are. -/
theorem advanceFrom_of_not_found (hsight : d.Sighted)
    (hnone : ∀ k, k ≠ 0 → ¬(d.tree.lookup (Path.route (g.pathOf k))).isOk = true) (index : Nat) :
    ∃ d', g.advanceFrom index d = (.ok (), d') ∧ d'.tree = d.tree ∧ d'.faults = d.faults := by
  induction index generalizing d with
  | zero => exact ⟨d, rfl, rfl, rfl⟩
  | succ index ih =>
      obtain ⟨seen, hexists, htree, hfaults⟩ :=
        FileAction.exists?_eq_of_sighted (g.pathOf (index + 1)) hsight
      have hfirst : g.advance (index + 1) d = (.ok (), seen) := by
        rw [advance, FileAction.run_bind, hexists]
        dsimp only
        rw [if_neg (hnone (index + 1) (by omega))]
        rfl
      obtain ⟨d', hrest, htree', hfaults'⟩ := ih (hsight.of_faults_eq hfaults) (htree ▸ hnone)
      refine ⟨d', ?_, htree'.trans htree, hfaults'.trans hfaults⟩
      rw [advanceFrom, FileAction.run_bind, hfirst]
      exact hrest

/-- Without a name there is nothing to replace. -/
theorem progress_rotate_of_unnamed (hnamed : ¬∃ way name, Path.Named g.path way name)
    (hgrounded : d.tree.Grounded) (hplain : g.Plain d.tree 0) (hsight : d.Sighted) :
    g.Progress d.tree d 0 (g.rotate d) := by
  have hvacant : d.tree.node? (g.slot d.tree.home 0) = none := by
    rcases hplain with hnone | ⟨place, content, hlookup⟩
    · exact hnone
    · exact absurd (exists_named_of_lookup_file hlookup) hnamed
  have hlost : ∀ k, k ≠ 0 → ¬(d.tree.lookup (Path.route (g.pathOf k))).isOk = true :=
    fun k hk hfound => hnamed (exists_named_of_lookup hgrounded (by simp [hvacant]) hk hfound)
  rcases hrun : g.rotate d with ⟨fault | _, d'⟩
  · have hsame : d'.tree = d.tree ∧ d'.faults = d.faults := by
      rw [rotate] at hrun
      by_cases hone : g.count = 1
      · rw [if_pos hone] at hrun
        exact Disk.change_eq_error hrun
      · obtain ⟨between, hfirst, htree, hfaults⟩ :=
          advanceFrom_of_not_found hsight hlost (g.count - 1)
        rw [if_neg hone, FileAction.run_bind, hfirst] at hrun
        obtain ⟨htree', hfaults'⟩ := Disk.change_eq_error hrun
        exact ⟨htree'.trans htree, hfaults'.trans hfaults⟩
    exact .stopped (hsame.1 ▸ .refl g d.tree) hsame.2 ⟨g.count_pos, Nat.le_refl _⟩
      fun hunhindered => hunhindered.active hvacant
  · exact absurd (exists_named_of_rotate hrun) hnamed

/-! ## Replacing the active file -/

/-- **Replacing the active file** moves all generations on, or those behind a
call that failed; without a reason to fail no call does. -/
theorem progress_rotate (hgrounded : d.tree.Grounded)
    (hplain : ∀ k, k < g.count → g.Plain d.tree k) (hsight : d.Sighted) :
    g.Progress d.tree d 0 (g.rotate d) := by
  have hpos := g.count_pos
  by_cases hnamed : ∃ way name, Path.Named g.path way name
  · obtain ⟨way, name, h⟩ := hnamed
    have hstart : g.MovedOn (g.count - 1 + 1) d.tree d.tree := by
      rw [Nat.sub_add_cancel hpos]
      exact .refl g d.tree
    rw [rotate]
    by_cases hone : g.count = 1
    · rw [if_pos hone]
      rw [hone] at hstart
      show g.Progress d.tree d 0 (FileAction.remove (g.pathOf 0) d)
      exact progress_remove h hplain hstart hone.symm Unhindered.active
    · have hfirst := progress_advanceFrom h hgrounded hplain hsight hstart (by omega)
      rw [if_neg hone, FileAction.run_bind]
      cases hrun : g.advanceFrom (g.count - 1) d with
      | mk result between =>
          rw [hrun] at hfirst
          cases hfirst with
          | finished hmoved hfaults =>
              have hlast : g.Progress d.tree between 0
                  (FileAction.rename (g.pathOf 0) (g.pathOf (0 + 1)) between) :=
                progress_rename h hgrounded hplain hmoved (by omega) Unhindered.active
              exact hlast.of_faults_eq hfaults
          | stopped hmoved hfaults hreached hcause =>
              exact .stopped hmoved hfaults (by omega) hcause
  · exact progress_rotate_of_unnamed hnamed hgrounded (hplain 0 hpos) hsight

/-- A generation stands where it stood, or one further on if it has moved. -/
theorem MovedOn.node?_landing (hmoved : g.MovedOn stop t t') (hk : k + 1 < g.count) :
    t'.node? (g.slot t.home (if k < stop then k else k + 1)) = t.node? (g.slot t.home k) := by
  have hstay := hmoved.node?_slot k (by omega)
  have hnext := hmoved.node?_slot (k + 1) hk
  grind

/-- **A rotation that fails midway overwrites nothing.**  Let the generations
be files or missing, in any pattern, and let any removal or renaming fail by
itself.  If the rotation fails, then the active file is as it was; in any case
every generation but the oldest one is found as it was at its own index or the
next one, in the same order, and all else is untouched. -/
theorem rotate_overwrites_nothing (hgrounded : d.tree.Grounded)
    (hplain : ∀ k, k < g.count → g.Plain d.tree k) (hsight : d.Sighted)
    {result : Except SystemFault Unit} (hrun : g.rotate d = (result, d')) :
    d'.tree.home = d.tree.home ∧
      ((∃ fault, result = .error fault) →
        d'.tree.node? (g.slot d.tree.home 0) = d.tree.node? (g.slot d.tree.home 0)) ∧
      (∃ landing : Nat → Nat, (∀ i, landing i = i ∨ landing i = i + 1) ∧
        (∀ i j, i < j → landing i < landing j) ∧
        ∀ i, i + 1 < g.count → landing i < g.count ∧
          d'.tree.node? (g.slot d.tree.home (landing i)) = d.tree.node? (g.slot d.tree.home i)) ∧
      ∀ q, (∀ k, k < g.count → q ≠ g.slot d.tree.home k) →
        d'.tree.node? q = d.tree.node? q := by
  have hprogress := progress_rotate hgrounded hplain hsight
  rw [hrun] at hprogress
  have hmoved : ∃ stop, g.MovedOn stop d.tree d'.tree ∧
      ((∃ fault, result = .error fault) → 0 < stop) := by
    cases hprogress with
    | finished hmoved hfaults => exact ⟨0, hmoved, by simp⟩
    | stopped hmoved hfaults hreached hcause => exact ⟨_, hmoved, fun _ => hreached.1⟩
  obtain ⟨stop, hmoved, hstop⟩ := hmoved
  refine ⟨hmoved.home_eq, ?_, ?_, hmoved.node?_other⟩
  · intro hfault
    rw [hmoved.node?_slot 0 g.count_pos, if_pos (hstop hfault)]
  · refine ⟨fun i => if i < stop then i else i + 1, by grind, by grind, fun i hi => ⟨by grind, ?_⟩⟩
    exact hmoved.node?_landing hi

/-- The active file could not be renamed, behind one generation that was removed
and one that was renamed. -/
theorem rotate_overwrites_nothing_of_denied :
    let g : Generations := ⟨"t.log", 3, ⟨0⟩, by decide⟩
    let tree : FileTree := ⟨[(["t.log"], .file "a\n"), (["t.log.1"], .file "b\n"),
      (["t.log.2"], .file "c\n")], [], 4096⟩
    let d : Disk := ⟨tree, 0, fun _ c =>
      if c = .rename (Path.route "t.log") (Path.route "t.log.1") then some .denied else none⟩
    (g.rotate d).1 = .error .denied ∧
      (g.rotate d).2.tree.node? ["t.log"] = some (.file "a\n") ∧
      ∃ landing : Nat → Nat, (landing 1 = 1 ∨ landing 1 = 2) ∧
        (g.rotate d).2.tree.node? (g.slot [] (landing 1)) = some (.file "b\n") := by
  intro g tree d
  have hfault : (g.rotate d).1 = .error .denied := by decide +kernel
  have hsight : d.Sighted := fun _ _ => rfl
  have hrun : g.rotate d = ((g.rotate d).1, (g.rotate d).2) := Prod.ext rfl rfl
  obtain ⟨-, hactive, ⟨landing, hnear, -, hlanded⟩, -⟩ :=
    rotate_overwrites_nothing (by decide +kernel) (by decide +kernel) hsight hrun
  have hslot : g.slot d.tree.home 0 = ["t.log"] := by decide +kernel
  have hfirst : d.tree.node? (g.slot d.tree.home 0) = some (.file "a\n") := by decide +kernel
  have hsecond : d.tree.node? (g.slot d.tree.home 1) = some (.file "b\n") := by decide +kernel
  refine ⟨hfault, ?_, landing, hnear 1, ?_⟩
  · rw [← hslot, hactive ⟨_, hfault⟩, hfirst]
  · exact (hlanded 1 (by decide)).2.trans hsecond

end Generations

end TraceLog
