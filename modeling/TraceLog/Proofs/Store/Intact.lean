import TraceLog.Proofs.Store.Relocation
import TraceLog.Proofs.Store.Shift

/-!
# TraceLog.Proofs.Store.Intact

A turn that fails has changed nothing.

Calls fail for what stands where only.  The oldest generation moves first, so
the first call that changes anything leaves a free slot, and every later one
moves what is in front of the free slot to it.  This can be done whatever is
moved, a file or a directory with everything inside, as long as the way to the
generations does not lead through one of them.  So it is the first change that
fails, or none.

* `Path.Named.readable_of_le` — a shorter number can be read if a longer one
  can;
* `Generations.Direct` — a way that does not lead through what is moved;
* `Generations.Freed` — the slot of a generation is free, and the ones in front
  of it may move on;
* `Generations.Freed.move` — what a move on preserves;
* `Generations.harmless_rotate` — replacing the active file;
* `Generations.rotateIfLarge_intact` — and if it is large only;
* `Generations.Freed.exists_openActive` — the active file can be opened then.
-/

namespace TraceLog

namespace FileTree

/-- A path can be walked if no name holds a NUL and it is not too long. -/
theorem checkPath_eq_ok_iff {r : Route} :
    checkPath r = .ok () ↔ (∀ name ∈ r.names, '\x00' ∉ name.toList) ∧ r.size ≤ Path.sizeLimit := by
  refine ⟨fun h => ?_, fun h => checkPath_eq_ok h.1 h.2⟩
  rw [checkPath] at h
  split at h
  · contradiction
  · next hnul =>
      split at h
      · contradiction
      · next hsize => exact ⟨by simpa using hnul, Nat.not_lt.1 hsize⟩

end FileTree

namespace Path

variable {path name : String} {way : List String} {i j : Nat}

/-! ## Longer and shorter numbers -/

/-- The number of a generation is written in characters of one byte. -/
theorem val_of_mem_suffix {c : Char} (h : c ∈ suffix i) : 0 < c.val ∧ c.val ≤ 127 := by
  by_cases hzero : i = 0
  · simp [suffix, hzero] at h
  · rw [suffix, if_neg hzero, List.mem_cons] at h
    rcases h with rfl | hdigit
    · decide
    · have hdigit := Nat.isDigit_of_mem_toDigits (by omega) (by omega) hdigit
      simp only [Char.isDigit, ge_iff_le, Bool.and_eq_true, decide_eq_true_eq] at hdigit
      exact ⟨Nat.lt_of_lt_of_le (by decide) hdigit.1, Nat.le_trans hdigit.2 (by decide)⟩

theorem utf8ByteSize_ofList_of_val {cs : List Char} (h : ∀ c ∈ cs, c.val ≤ 127) :
    (String.ofList cs).utf8ByteSize = cs.length := by
  induction cs with
  | nil => rfl
  | cons c cs ih =>
      have hone := Char.utf8Size_eq_one_iff.2 (h c List.mem_cons_self)
      have hrest := ih fun d hd => h d (List.mem_cons_of_mem _ hd)
      rw [String.ofList_cons, String.utf8ByteSize_append, String.utf8ByteSize_singleton, hone,
        hrest, List.length_cons, Nat.add_comm]

theorem utf8ByteSize_generation (text : String) (index : Nat) :
    (generation text index).utf8ByteSize = text.utf8ByteSize + (suffix index).length := by
  have htext : generation text index = text ++ String.ofList (suffix index) := by
    rw [← String.toList_inj, toList_generation]
    simp
  rw [htext, String.utf8ByteSize_append,
    utf8ByteSize_ofList_of_val fun c hc => (val_of_mem_suffix hc).2]

theorem length_suffix_le (h : i ≤ j) : (suffix i).length ≤ (suffix j).length := by
  by_cases hi : i = 0
  · simp [suffix, hi]
  · have hdigits : (decimal i).length ≤ (decimal j).length := by
      refine (Nat.length_toDigits_le_iff (by omega) Nat.length_toDigits_pos).2 ?_
      have hj := (Nat.length_toDigits_le_iff (n := j) (by omega : 1 < 10)
        Nat.length_toDigits_pos).1 (Nat.le_refl _)
      exact Nat.lt_of_le_of_lt h hj
    simpa [suffix, hi, show j ≠ 0 by omega] using hdigits

/-- **A generation in front of one that can be read** can be read, too. -/
theorem Named.readable_of_le (h : Named path way name) (hij : i ≤ j)
    (hreadable : Readable (generation path j)) : Readable (generation path i) := by
  obtain ⟨hcheck, hlast⟩ := hreadable
  obtain ⟨hnul, hsize⟩ := FileTree.checkPath_eq_ok_iff.1 hcheck
  have hlonger := length_suffix_le hij
  rw [h.names_generation] at hnul hlast
  refine ⟨FileTree.checkPath_eq_ok_iff.2 ⟨?_, ?_⟩, ?_⟩
  · rw [h.names_generation]
    intro part hpart
    rw [List.mem_append, List.mem_singleton] at hpart
    rcases hpart with hway | rfl
    · exact hnul part (List.mem_append_left _ hway)
    · have hname := hnul (generation name j) (List.mem_append_right _ List.mem_cons_self)
      rw [toList_generation, List.mem_append, not_or] at hname ⊢
      exact ⟨hname.1, fun hmem => absurd (val_of_mem_suffix hmem).1 (by decide)⟩
  · have hpath : (generation path j).utf8ByteSize ≤ sizeLimit := hsize
    show (generation path i).utf8ByteSize ≤ sizeLimit
    rw [utf8ByteSize_generation] at hpath ⊢
    omega
  · have hname := hlast (generation name j) List.getLast?_concat
    rw [h.names_generation]
    intro part hpart
    rw [List.getLast?_concat, Option.some.injEq] at hpart
    rw [utf8ByteSize_generation] at hname
    rw [← hpart, utf8ByteSize_generation]
    omega

end Path

namespace Generations

variable {g : Generations} {t t' : FileTree} {d d' : Disk} {way : List String} {name : String}
  {index : Nat}

/-! ## Free slots -/

/-- A generation that can be read is found exactly if anything stands in its
slot. -/
theorem isOk_lookup_iff (h : Path.Named g.path way name) (hway : g.Way t)
    (hreadable : Path.Readable (g.pathOf index)) :
    (t.lookup (Path.route (g.pathOf index))).isOk = true ↔
      t.node? (g.slot t.home index) ≠ none := by
  constructor
  · intro hok
    obtain ⟨⟨place, node⟩, hlookup⟩ := exists_of_isOk hok
    rw [(slot_of_lookup h hlookup).1]
    simp
  · intro hthere
    obtain ⟨node, hnode⟩ := Option.ne_none_iff_exists'.1 hthere
    obtain ⟨dir, hslot, hsize, happroach⟩ := exists_approach h hway hreadable
    have hslash : (Path.route (g.pathOf index)).slash = false := h.slash_generation index
    rw [← hslot] at hnode
    rw [FileTree.lookup, happroach]
    dsimp only
    rw [FileTree.entry?_eq_ok hsize, hnode, hslash]
    cases node <;> rfl

/-- The path ends in the name of its file, and does not lead through any of its
generations but the oldest one. -/
structure Direct (g : Generations) (home : Place) : Prop where
  named : ∃ way name, Path.Named g.path way name
  apart : ∀ k, k + 1 < g.count → g.slot home k ∉
    Path.entered (Path.origin home (Path.route g.path)) (Path.route g.path).names.dropLast

/-- The slot of a generation is free and the one in front of it can move there;
then the next one can, and so on. -/
structure Freed (g : Generations) (stop : Nat) (t : FileTree) : Prop where
  grounded : t.Grounded
  direct : g.Direct t.home
  way : g.Way t
  stop_lt : stop < g.count
  readable : Path.Readable (g.pathOf stop)
  free : t.node? (g.slot t.home stop) = none
  active : stop ≠ 0 → t.node? (g.slot t.home 0) ≠ none

/-- Where there is nothing to move, the slot in front is free, too. -/
theorem Freed.of_none (h : g.Freed (index + 1) t)
    (hnone : t.node? (g.slot t.home index) = none) : g.Freed index t := by
  obtain ⟨way, name, hnamed⟩ := h.direct.named
  have hlt := h.stop_lt
  exact ⟨h.grounded, h.direct, h.way, by omega, hnamed.readable_of_le (Nat.le_succ index) h.readable,
    hnone, fun _ => h.active (Nat.succ_ne_zero index)⟩

/-- Routes start where the working directory has moved to. -/
theorem origin_relocate (a : String) (dir new home : Place) (r : Route) :
    Path.origin (FileTree.relocate (a :: dir) new home) r =
      FileTree.relocate (a :: dir) new (Path.origin home r) := by
  rw [Path.origin, Path.origin]
  split
  · rw [FileTree.relocate_nil]
  · rfl

/-- A way that leads through no generation does not when one has moved on. -/
theorem Direct.move (h : g.Direct t.home) (hlt : index + 1 < g.count) :
    g.Direct (t.move (g.slot t.home index) (g.slot t.home (index + 1))).home := by
  obtain ⟨way, name, hnamed⟩ := h.named
  have hindex := h.apart index hlt
  refine ⟨h.named, fun k hk => ?_⟩
  show g.slot (FileTree.relocate _ _ t.home) k ∉ _
  rw [slot_relocate hnamed]
  rw [slot_eq hnamed _ index] at hindex
  have hentered := FileTree.entered_relocate (b := Path.generation name (index + 1)) hindex
  rw [FileTree.move, slot_eq hnamed _ index, slot_eq hnamed _ (index + 1), origin_relocate,
    hentered, ← slot_eq hnamed _ index, ← slot_eq hnamed _ (index + 1)]
  intro hmem
  obtain ⟨place, hplace, hmoved⟩ := List.mem_map.1 hmem
  by_cases hinside : FileTree.inside (g.slot t.home index) place = true
  · -- What got inside the new slot was entered through the old one.
    have hin := FileTree.inside_relocate (g.slot t.home (index + 1)) hinside
    rw [hmoved, inside_slot_iff hnamed] at hin
    rw [← hin, FileTree.relocate_eq_new_iff hinside] at hmoved
    exact h.apart index hlt (hmoved ▸ hplace)
  · rw [FileTree.relocate_of_not_inside _ hinside] at hmoved
    exact h.apart k hk (hmoved ▸ hplace)

/-- **One move on**: the slot that it leaves is free. -/
theorem Freed.move (h : g.Freed (index + 1) t) :
    g.Freed index (t.move (g.slot t.home index) (g.slot t.home (index + 1))) := by
  obtain ⟨way, name, hnamed⟩ := h.direct.named
  have hlt := h.stop_lt
  have hslot : ∀ k, g.slot (t.move (g.slot t.home index) (g.slot t.home (index + 1))).home k =
      g.slot t.home k := slot_relocate hnamed t.home index (index + 1)
  have hnode : ∀ k, (t.move (g.slot t.home index) (g.slot t.home (index + 1))).node?
      (g.slot t.home k) = if k = index + 1 then t.node? (g.slot t.home index)
        else if k = index then none else t.node? (g.slot t.home k) := by
    intro k
    rw [FileTree.node?_move t (slot_ne_nil hnamed _ _) (slot_ne_nil hnamed _ _)
      (mt (slot_eq_slot_iff hnamed _).1 (by omega)) (mt (inside_slot_iff hnamed _).1 (by omega))
      (fun hin => by rw [(inside_slot_iff hnamed _).1 hin])
      fun hin => by rw [(inside_slot_iff hnamed _).1 hin]]
    simp only [slot_eq_slot_iff hnamed]
  have hfree := h.free
  rw [slot_eq hnamed] at hfree
  refine ⟨?_, h.direct.move hlt, ?_, by omega,
    hnamed.readable_of_le (Nat.le_succ index) h.readable, ?_, fun hzero => ?_⟩
  · rw [slot_eq hnamed, slot_eq hnamed]
    exact h.grounded.move hfree
  · obtain ⟨dir, hwalk⟩ := h.way
    have hapart := h.direct.apart index hlt
    rw [slot_eq hnamed] at hapart
    have hwalk' := h.grounded.walk_move hfree hapart hwalk
    rw [← origin_relocate, ← slot_eq hnamed, ← slot_eq hnamed] at hwalk'
    exact ⟨_, hwalk'⟩
  · rw [hslot, hnode, if_neg (by omega), if_pos rfl]
  · rw [hslot, hnode, if_neg (by omega), if_neg (Ne.symm hzero)]
    exact h.active (Nat.succ_ne_zero index)

/-- What stands in front of a free slot can be renamed to it. -/
theorem Freed.exists_rename (h : g.Freed (index + 1) d.tree) (hquiet : d.Quiet)
    (hthere : d.tree.node? (g.slot d.tree.home index) ≠ none) :
    ∃ d', FileAction.rename (g.pathOf index) (g.pathOf (index + 1)) d = (.ok (), d') ∧
      g.Freed index d'.tree ∧ d'.Quiet := by
  obtain ⟨way, name, hnamed⟩ := h.direct.named
  obtain ⟨node, hnode⟩ := Option.ne_none_iff_exists'.1 hthere
  obtain ⟨after, hrename⟩ := Generations.exists_rename hnamed h.way (by omega)
    (hnamed.readable_of_le (Nat.le_succ index) h.readable) h.readable hnode h.free
  rcases hrun : FileAction.rename (g.pathOf index) (g.pathOf (index + 1)) d with ⟨fault | _, d'⟩
  · rw [hquiet.run_eq_error hrun] at hrename
    contradiction
  · obtain ⟨-, hfaults, -, htree⟩ := tree_of_rename hnamed (by omega) hrun
    exact ⟨d', rfl, htree ▸ h.move, hquiet.of_faults_eq hfaults⟩

/-- The active file can be opened once its slot is free. -/
theorem Freed.exists_openActive (h : g.Freed 0 d.tree) (hquiet : d.Quiet) :
    ∃ place d', g.openActive d = (.ok place, d') := by
  obtain ⟨way, name, hnamed⟩ := h.direct.named
  obtain ⟨dir, hslot, hsize, happroach⟩ := exists_approach hnamed h.way h.readable
  have hslash : (Path.route (g.pathOf 0)).slash = false := hnamed.slash_generation 0
  have hfree := h.free
  rw [← hslot] at hfree
  have hopen : d.tree.openForAppend (Path.route g.path) =
      .ok (Path.generation name 0 :: dir, d.tree.put (Path.generation name 0 :: dir) (.file "")) := by
    show d.tree.openForAppend (Path.route (g.pathOf 0)) = _
    rw [FileTree.openForAppend, happroach]
    dsimp only
    rw [hslash, FileTree.entry?_eq_ok hsize, hfree]
    rfl
  rw [openActive, FileAction.openForAppend, Disk.call, hquiet, hopen]
  exact ⟨_, _, rfl⟩

/-! ## The first change -/

/-- What a turn of the generations starts with: the active file is found. -/
structure Begun (g : Generations) (t : FileTree) : Prop where
  grounded : t.Grounded
  direct : g.Direct t.home
  found : (t.lookup (Path.route (g.pathOf 0))).isOk = true

theorem Begun.active (h : g.Begun t) : g.Way t ∧ t.node? (g.slot t.home 0) ≠ none := by
  obtain ⟨way, name, hnamed⟩ := h.direct.named
  obtain ⟨⟨place, node⟩, hlookup⟩ := exists_of_isOk h.found
  obtain ⟨hnode, hway, -⟩ := slot_of_lookup hnamed hlookup
  exact ⟨hway, by simp [hnode]⟩

/-- The slot of a generation that is not found is free, if the system takes its
path. -/
theorem Begun.freed (h : g.Begun t) (hlt : index < g.count)
    (hnone : (t.lookup (Path.route (g.pathOf index))).isOk = false)
    (hreadable : Path.Readable (g.pathOf index)) : g.Freed index t := by
  obtain ⟨way, name, hnamed⟩ := h.direct.named
  obtain ⟨hway, hactive⟩ := h.active
  have hfree := mt (isOk_lookup_iff hnamed hway hreadable).2 (by simp [hnone])
  exact ⟨h.grounded, h.direct, hway, hlt, hreadable, Decidable.not_not.1 hfree, fun _ => hactive⟩

/-- The oldest generation was removed, which leaves a free slot. -/
theorem Begun.freed_of_remove (h : g.Begun d.tree) (hlast : index + 1 = g.count)
    (hreadable : Path.Readable (g.pathOf index))
    (hrun : FileAction.remove (g.pathOf index) d = (.ok (), d')) : g.Freed index d'.tree := by
  obtain ⟨way, name, hnamed⟩ := h.direct.named
  obtain ⟨⟨dir, hwalk⟩, -, hhome, hnode⟩ := node?_of_remove hnamed hrun
  obtain ⟨hremove, -⟩ := Disk.change_eq_ok hrun
  obtain ⟨last, parent, node, happroach, hthere, hfile, -, -⟩ := FileTree.remove_eq_ok hremove
  obtain ⟨hslot, -, -⟩ := slot_of_approach hnamed happroach
  rw [hslot] at hthere
  have hsame : ∀ q, d'.tree.node? q = some .directory ↔ d.tree.node? q = some .directory := by
    intro q
    rw [hnode]
    split
    · next heq => simp [heq, hthere, hfile]
    · rfl
  refine ⟨FileTree.grounded_of_parent (fun q hq => ?_) ?_, hhome ▸ h.direct, ⟨dir, ?_⟩, by omega,
    hreadable, ?_, fun hzero => ?_⟩
  · rw [hnode] at hq
    split at hq
    · contradiction
    · obtain ⟨found, hfound⟩ := Option.ne_none_iff_exists'.1 hq
      exact (hsame _).2 (h.grounded.parent hfound)
  · rw [hhome, hsame]
    exact h.grounded.2
  · rw [hhome, FileTree.walk_congr hsame]
    exact hwalk
  · rw [hhome, hnode, if_pos rfl]
  · rw [hhome, hnode, if_neg (mt (slot_eq_slot_iff hnamed _).1 (Ne.symm hzero))]
    exact h.active.2

/-- How far a turn has come: there was nothing to move down to a generation, or
its slot is free. -/
inductive Ready (g : Generations) (t : FileTree) (stop : Nat) (t' : FileTree) : Prop
  | unmoved (htree : t' = t)
      (hnone : stop < g.count → (t.lookup (Path.route (g.pathOf stop))).isOk = false)
  | freed (hfreed : g.Freed stop t')

/-- What has come of a turn: it has failed and changed nothing, or has come to
the generation. -/
inductive Harmless (g : Generations) (t : FileTree) (stop : Nat) :
    Except SystemFault Unit × Disk → Prop
  | failed {fault : SystemFault} {d' : Disk} (htree : d'.tree = t) :
      Harmless g t stop (.error fault, d')
  | ready {d' : Disk} (hready : g.Ready t stop d'.tree) (hquiet : d'.Quiet) :
      Harmless g t stop (.ok (), d')

/-- Removing the oldest generation is the first change. -/
theorem harmless_remove (h : g.Begun t) (hquiet : d.Quiet) (htree : d.tree = t)
    (hlast : index + 1 = g.count) (hreadable : Path.Readable (g.pathOf index)) :
    g.Harmless t index (FileAction.remove (g.pathOf index) d) := by
  rcases hrun : FileAction.remove (g.pathOf index) d with ⟨fault | _, d'⟩
  · exact .failed ((Disk.change_eq_error hrun).1.trans htree)
  · subst htree
    exact .ready (.freed (h.freed_of_remove hlast hreadable hrun))
      (hquiet.of_faults_eq (Disk.change_eq_ok hrun).2)

/-- Renaming a generation is the first change, or goes to a free slot. -/
theorem harmless_rename (h : g.Begun t) (hquiet : d.Quiet) (hready : g.Ready t (index + 1) d.tree)
    (hroom : index + 1 < g.count) (hthere : d.tree.node? (g.slot d.tree.home index) ≠ none) :
    g.Harmless t index (FileAction.rename (g.pathOf index) (g.pathOf (index + 1)) d) := by
  cases hready with
  | unmoved htree hnone =>
      rcases hrun : FileAction.rename (g.pathOf index) (g.pathOf (index + 1)) d with ⟨fault | _, d'⟩
      · exact .failed ((Disk.change_eq_error hrun).1.trans htree)
      · subst htree
        obtain ⟨way, name, hnamed⟩ := h.direct.named
        obtain ⟨-, hfaults, hreadable, hmoved⟩ := tree_of_rename hnamed (by omega) hrun
        have hfreed := (h.freed hroom (hnone hroom) hreadable).move
        exact .ready (.freed (hmoved ▸ hfreed)) (hquiet.of_faults_eq hfaults)
  | freed hfreed =>
      obtain ⟨d', hrun, hfreed', hquiet'⟩ := hfreed.exists_rename hquiet hthere
      rw [hrun]
      exact .ready (.freed hfreed') hquiet'

/-- **One step** changes nothing when it fails. -/
theorem harmless_advance (h : g.Begun t) (hquiet : d.Quiet)
    (hready : g.Ready t (index + 1) d.tree) (hlt : index < g.count) :
    g.Harmless t index (g.advance index d) := by
  obtain ⟨way, name, hnamed⟩ := h.direct.named
  obtain ⟨seen, hexists, htree, hfaults⟩ :=
    FileAction.exists?_eq_of_sighted (g.pathOf index) hquiet.sighted
  have hquiet' := hquiet.of_faults_eq hfaults
  rw [advance, FileAction.run_bind, hexists]
  dsimp only
  by_cases hfound : (d.tree.lookup (Path.route (g.pathOf index))).isOk = true
  · obtain ⟨⟨place, node⟩, hlookup⟩ := exists_of_isOk hfound
    obtain ⟨hnode, -, hreadable⟩ := slot_of_lookup hnamed hlookup
    rw [if_pos hfound]
    rw [← htree] at hready hnode
    by_cases holdest : index = g.count - 1
    · rw [if_pos holdest]
      cases hready with
      | unmoved hsame hnone => exact harmless_remove h hquiet' hsame (by omega) hreadable
      | freed hfreed =>
          have hroom := hfreed.stop_lt
          omega
    · rw [if_neg holdest]
      exact harmless_rename h hquiet' hready (by omega) (by simp [hnode])
  · rw [if_neg hfound]
    refine .ready ?_ hquiet'
    rw [htree]
    cases hready with
    | unmoved hsame _ => exact .unmoved hsame fun _ => by simpa [← hsame] using hfound
    | freed hfreed =>
        have hreadable := hnamed.readable_of_le (Nat.le_succ index) hfreed.readable
        have hnone := mt (isOk_lookup_iff hnamed hfreed.way hreadable).2 hfound
        exact .freed (hfreed.of_none (Decidable.not_not.1 hnone))

/-- **All steps**: the first one that changes anything is the last one that may
fail. -/
theorem harmless_advanceFrom (h : g.Begun t) (hquiet : d.Quiet)
    (hready : g.Ready t (index + 1) d.tree) (hlt : index < g.count) :
    g.Harmless t 1 (g.advanceFrom index d) := by
  induction index generalizing d with
  | zero => exact .ready hready hquiet
  | succ index ih =>
      have hstep := harmless_advance h hquiet hready hlt
      rw [advanceFrom, FileAction.run_bind]
      cases hrun : g.advance (index + 1) d with
      | mk result between =>
          rw [hrun] at hstep
          cases hstep with
          | failed htree => exact .failed htree
          | ready hready' hquiet' => exact ih hquiet' hready' (by omega)

/-- **Replacing the active file** changes nothing when it fails. -/
theorem harmless_rotate (h : g.Begun d.tree) (hquiet : d.Quiet) :
    g.Harmless d.tree 0 (g.rotate d) := by
  obtain ⟨way, name, hnamed⟩ := h.direct.named
  obtain ⟨⟨place, node⟩, hlookup⟩ := exists_of_isOk h.found
  obtain ⟨-, -, hreadable⟩ := slot_of_lookup hnamed hlookup
  rw [rotate]
  by_cases hone : g.count = 1
  · rw [if_pos hone]
    exact harmless_remove h hquiet rfl (by omega) hreadable
  · rw [if_neg hone, FileAction.run_bind]
    have hpos := g.count_pos
    have hmoved : g.Harmless d.tree 1 (g.advanceFrom (g.count - 1) d) :=
      harmless_advanceFrom h hquiet (.unmoved rfl fun hlt => by omega) (by omega)
    cases hrun : g.advanceFrom (g.count - 1) d with
    | mk result between =>
        rw [hrun] at hmoved
        cases hmoved with
        | failed htree => exact .failed htree
        | ready hready hquiet' =>
            refine harmless_rename h hquiet' hready (by omega) ?_
            cases hready with
            | unmoved htree _ => exact htree ▸ h.active.2
            | freed hfreed => exact hfreed.active Nat.one_ne_zero

/-- If only one file is kept, then a path that does not end in a name cannot be
removed. -/
theorem harmless_rotate_of_found (hgrounded : d.tree.Grounded) (hquiet : d.Quiet)
    (hdirect : g.count = 1 ∨ g.Direct d.tree.home)
    (hfound : (d.tree.lookup (Path.route (g.pathOf 0))).isOk = true) :
    g.Harmless d.tree 0 (g.rotate d) := by
  by_cases hnamed : ∃ way name, Path.Named g.path way name
  · have hdirect' : g.Direct d.tree.home := by
      rcases hdirect with hone | hdirect
      · exact ⟨hnamed, fun k hk => by omega⟩
      · exact hdirect
    exact harmless_rotate ⟨hgrounded, hdirect', hfound⟩ hquiet
  · rcases hrun : g.rotate d with ⟨fault | _, d'⟩
    · have hone : g.count = 1 := hdirect.resolve_right fun hdirect => hnamed hdirect.named
      rw [rotate, if_pos hone] at hrun
      exact .failed (Disk.change_eq_error hrun).1
    · exact absurd (exists_named_of_rotate hrun) hnamed

/-- **Replacing the active file if it is large** changes nothing unless it
succeeds, and then the slot of the active file is free. -/
theorem rotateIfLarge_intact (hgrounded : d.tree.Grounded) (hquiet : d.Quiet)
    (hdirect : g.count = 1 ∨ g.Direct d.tree.home) :
    ((g.rotateIfLarge d).1 ≠ .ok true ∧ (g.rotateIfLarge d).2.tree = d.tree) ∨
      ((g.rotateIfLarge d).1 = .ok true ∧ g.Freed 0 (g.rotateIfLarge d).2.tree ∧
        (g.rotateIfLarge d).2.Quiet) := by
  obtain ⟨htree, hfaults⟩ := FileAction.length_eq g.path d
  rcases g.rotateIfLarge_left_or_replaced d with ⟨result, hresult, hrun⟩ | ⟨⟨size, hsize⟩, hrun⟩
  · rw [hrun]
    exact .inl ⟨hresult, htree⟩
  · rw [FileAction.length_fst_eq g.path hquiet.sighted, FileTree.lengthAt] at hsize
    have hfound : (d.tree.lookup (Path.route (g.pathOf 0))).isOk = true := by
      show (d.tree.lookup (Path.route g.path)).isOk = true
      cases hlookup : d.tree.lookup (Path.route g.path) with
      | error fault => simp [hlookup] at hsize
      | ok found => rfl
    generalize (FileAction.length g.path d).2 = seen at htree hfaults hrun
    have hturn := harmless_rotate_of_found (d := seen) (htree ▸ hgrounded) (hquiet.of_faults_eq hfaults)
      (htree ▸ hdirect) (htree ▸ hfound)
    rw [hrun, FileAction.run_bind]
    cases hrotate : g.rotate seen with
    | mk result after =>
        rw [hrotate] at hturn
        cases hturn with
        | failed hkept => exact .inl ⟨by simp, hkept.trans htree⟩
        | ready hready hquiet' =>
            cases hready with
            | unmoved _ hnone =>
                have hlost := hnone g.count_pos
                rw [htree, hfound] at hlost
                contradiction
            | freed hfreed => exact .inr ⟨rfl, hfreed, hquiet'⟩

end Generations

end TraceLog
