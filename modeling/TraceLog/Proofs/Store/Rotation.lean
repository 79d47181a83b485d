import TraceLog.Proofs.Store.Append
import TraceLog.Proofs.Store.Slots

/-!
# TraceLog.Proofs.Store.Rotation

What replacing and writing the active file does to the generations.

If no call fails, replacing the active file moves every generation on by one
and discards the oldest one, whatever gaps there are between them; writing a
batch adds it to the active file, after replacing that if it is large.

* `Generations.shifted` — every generation moved on by one;
* `Generations.rotateIfLarge_eq_ok` — replacing the active file;
* `Generations.written` — a batch at the end of the active file;
* `Generations.write_eq_ok` — writing a batch.
-/

namespace TraceLog

namespace Generations

variable {g : Generations} {d d' : Disk} {way : List String} {name : String}

/-! ## Moving the generations on -/

/-- A generation moved on, if there was room for it: the next one holds what
it held. -/
theorem advance_eq_ok (h : Path.Named g.path way name) (htidy : g.Tidy d.tree) (hquiet : d.Quiet)
    {index : Nat} (hindex : index < g.count) (hrun : g.advance index d = (.ok (), d')) :
    g.Kept d d' ∧ (g.Way d.tree → (index + 1 < g.count → g.held d.tree (index + 1) = none) →
      ∀ j, g.held d'.tree j = if j = index then none
        else if j = index + 1 ∧ index + 1 < g.count then g.held d.tree index
        else g.held d.tree j) := by
  obtain ⟨found, seen, hexists, htree, hfaults, hnone⟩ :=
    FileAction.exists?_eq (g.pathOf index) d
  rw [advance, FileAction.run_bind, hexists] at hrun
  have hseen : g.Kept d seen := .of_tree_eq htidy htree hfaults
  cases found with
  | false =>
      cases hrun
      refine ⟨hseen, ?_⟩
      intro hway hfree j
      obtain ⟨fault, hfault⟩ := hnone rfl hquiet
      have hindexNone := held_eq_none_of_lookup h htidy hway hfault
      rw [htree]
      split
      · next hj => rw [hj, hindexNone]
      · split
        · next hj => rw [hj.1, hindexNone, hfree hj.2]
        · rfl
  | true =>
      dsimp only at hrun
      rw [if_pos rfl] at hrun
      by_cases holdest : index = g.count - 1
      · rw [if_pos holdest] at hrun
        obtain ⟨hkept, -, hheld⟩ := remove_eq_ok h hseen.tidy hrun
        refine ⟨hseen.trans hkept, ?_⟩
        intro _ _ j
        rw [hheld, htree]
        have hlast : ¬(j = index + 1 ∧ index + 1 < g.count) := by omega
        rw [if_neg hlast]
      · rw [if_neg holdest] at hrun
        obtain ⟨hkept, -, hheld⟩ := rename_eq_ok h hseen.tidy (by omega) hrun
        refine ⟨hseen.trans hkept, ?_⟩
        intro _ _ j
        rw [hheld, htree]
        have hroom : index + 1 < g.count := by omega
        by_cases hj : j = index + 1
        · have hne : index + 1 ≠ index := by omega
          simp [hj, hroom]
        · simp [hj]

/-- The generations from `index` down to `1` moved on: each of the next ones
holds what the one before it held. -/
theorem advanceFrom_eq_ok (h : Path.Named g.path way name) (htidy : g.Tidy d.tree)
    (hquiet : d.Quiet) {index : Nat} (hindex : index < g.count)
    (hrun : g.advanceFrom index d = (.ok (), d')) :
    g.Kept d d' ∧ (g.Way d'.tree → (index + 1 < g.count → g.held d.tree (index + 1) = none) →
      ∀ j, g.held d'.tree j = if 1 ≤ j ∧ j ≤ index + 1 ∧ j < g.count then
          (if j = 1 then none else g.held d.tree (j - 1))
        else g.held d.tree j) := by
  induction index generalizing d with
  | zero =>
      cases hrun
      refine ⟨.of_tree_eq htidy rfl rfl, ?_⟩
      intro _ hfree j
      split
      · next hj =>
          have hone : j = 1 := by omega
          rw [if_pos hone, hone, hfree (by omega)]
      · rfl
  | succ index ih =>
      rw [advanceFrom] at hrun
      obtain ⟨_, between, hfirst, hrest⟩ := FileAction.bind_eq_ok hrun
      obtain ⟨hkept, hheld⟩ := advance_eq_ok h htidy hquiet hindex hfirst
      obtain ⟨hkept', hheld'⟩ :=
        ih hkept.tidy (hquiet.of_faults_eq hkept.faults_eq) (by omega) hrest
      refine ⟨hkept.trans hkept', ?_⟩
      intro hway hfree j
      have hheld := hheld (hkept.way (hkept'.way hway)) hfree
      have hroom : index + 1 < g.count → g.held between.tree (index + 1) = none := by
        intro _
        rw [hheld, if_pos rfl]
      have hj := hheld' hway hroom j
      have hfrom := hheld j
      have hbefore := hheld (j - 1)
      -- The generation that moved first has made room for the others.
      grind

/-- Every generation moved on by one, the oldest one discarded. -/
def shifted (g : Generations) (files : Nat → Option String) (index : Nat) : Option String :=
  if index = 0 then none else if index < g.count then files (index - 1) else files index

/-- **Replacing the active file** moves every generation on by one. -/
theorem rotate_eq_ok (h : Path.Named g.path way name) (htidy : g.Tidy d.tree) (hquiet : d.Quiet)
    (hrun : g.rotate d = (.ok (), d')) :
    g.Kept d d' ∧ ∀ j, g.held d'.tree j = g.shifted (g.held d.tree) j := by
  rw [rotate] at hrun
  by_cases hone : g.count = 1
  · rw [if_pos hone] at hrun
    obtain ⟨hkept, -, hheld⟩ := remove_eq_ok (i := 0) h htidy hrun
    refine ⟨hkept, fun j => ?_⟩
    have hj := hheld j
    grind [shifted]
  · rw [if_neg hone] at hrun
    obtain ⟨_, between, hfirst, hlast⟩ := FileAction.bind_eq_ok hrun
    have hpos := g.count_pos
    obtain ⟨hkept, hmoved⟩ := advanceFrom_eq_ok h htidy hquiet (by omega) hfirst
    obtain ⟨hkept', hway, hheld⟩ :=
      rename_eq_ok (i := 0) (j := 1) h hkept.tidy (by omega) hlast
    have hmoved := hmoved hway fun hroom => by omega
    refine ⟨hkept.trans hkept', fun j => ?_⟩
    have hj := hheld j
    have hfrom := hmoved j
    have hactive := hmoved 0
    grind [shifted]

/-- What has a last name and no slash behind it has a name. -/
theorem exists_named_of_approach {path : String} {t : FileTree} {last : String} {dir : Place}
    (happroach : t.approach (Path.route path) = .ok (.entry last dir))
    (hslash : (Path.route path).slash = false) : ∃ way name, Path.Named path way name := by
  obtain ⟨-, way, hnames, hhere, habove, -⟩ := FileTree.approach_eq_entry happroach
  exact ⟨way, last, hnames, hslash, hhere, habove⟩

/-- What could be replaced has a name: were there a slash behind it, then the
first generation would be inside what is to be moved there. -/
theorem exists_named_of_rotate (hrun : g.rotate d = (.ok (), d')) :
    ∃ way name, Path.Named g.path way name := by
  rw [rotate] at hrun
  by_cases hone : g.count = 1
  · rw [if_pos hone] at hrun
    obtain ⟨hremove, -⟩ := Disk.change_eq_ok hrun
    obtain ⟨last, dir, -, happroach, -, -, hslash, -⟩ := FileTree.remove_eq_ok hremove
    exact exists_named_of_approach happroach hslash
  · rw [if_neg hone] at hrun
    obtain ⟨-, between, -, hlast⟩ := FileAction.bind_eq_ok hrun
    obtain ⟨hrename, -⟩ := Disk.change_eq_ok hlast
    obtain ⟨a, dir, b, dir', -, hold, hnew, -, -, -, hmoved⟩ := FileTree.rename_eq_ok hrename
    cases hslash : (Path.route g.path).slash with
    | false => exact exists_named_of_approach hold hslash
    | true =>
        have hplace := Path.place_generation_of_slash hslash Nat.one_ne_zero between.tree.home
        have hnew' : between.tree.approach (Path.route (Path.generation g.path 1)) =
            .ok (.entry b dir') := hnew
        rw [FileTree.place_of_approach hnew', FileTree.place_of_approach hold] at hplace
        have hinside : FileTree.inside (a :: dir) (b :: dir') = true := by
          rw [hplace]
          exact List.isSuffixOf_iff_suffix.2 (List.suffix_cons _ _)
        rcases hmoved with ⟨hsame, -⟩ | ⟨-, hinto, -, -⟩
        · have hlength := congrArg List.length (hsame.trans hplace)
          simp at hlength
        · exact absurd hinside hinto

/-- Whether the active file is replaced depends on the length that it is said
to have; without it there is nothing to replace. -/
theorem rotateIfLarge_cases {rotated : Bool} (hrun : g.rotateIfLarge d = (.ok rotated, d')) :
    (rotated = false ∧ d' = (FileAction.length g.path d).2 ∧
      ∀ size, (FileAction.length g.path d).1 = .ok size → g.isLarge size = false) ∨
    (rotated = true ∧ g.rotate (FileAction.length g.path d).2 = (.ok (), d') ∧
      ∃ size, (FileAction.length g.path d).1 = .ok size ∧ g.isLarge size = true) := by
  rw [rotateIfLarge] at hrun
  have hrun := FileAction.outcome_bind_eq_ok hrun
  rcases hlength : FileAction.length g.path d with ⟨fault | size, seen⟩
  · rw [hlength] at hrun
    cases fault <;> cases hrun
    exact .inl ⟨rfl, rfl, by simp⟩
  · rw [hlength] at hrun
    dsimp only at hrun
    by_cases hlarge : g.isLarge size = true
    · rw [if_pos hlarge] at hrun
      obtain ⟨_, after, hrotate, hrun⟩ := FileAction.bind_eq_ok hrun
      cases hrun
      exact .inr ⟨rfl, hrotate, size, rfl, hlarge⟩
    · rw [if_neg hlarge] at hrun
      cases hrun
      exact .inl ⟨rfl, rfl, by simpa using hlarge⟩

/-- The active file is left alone, or it has been measured and is replaced on
the disk as it was then. -/
theorem rotateIfLarge_left_or_replaced (g : Generations) (d : Disk) :
    (∃ result, result ≠ .ok true ∧ g.rotateIfLarge d = (result, (FileAction.length g.path d).2)) ∨
      (∃ size, (FileAction.length g.path d).1 = .ok size) ∧ g.rotateIfLarge d =
        (g.rotate >>= fun _ => pure true) (FileAction.length g.path d).2 := by
  rw [rotateIfLarge, FileAction.run_bind, Disk.run_outcome]
  cases (FileAction.length g.path d).1 with
  | error fault =>
      refine .inl ?_
      cases fault with
      | missing => exact ⟨.ok false, by simp, rfl⟩
      | _ => exact ⟨_, by simp, rfl⟩
  | ok size =>
      dsimp only
      split
      · exact .inr ⟨⟨size, rfl⟩, rfl⟩
      · exact .inl ⟨.ok false, by simp, rfl⟩

/-- Replacing the active file if it is large moves the generations on, or
leaves them alone. -/
theorem rotateIfLarge_eq_ok (h : Path.Named g.path way name) (htidy : g.Tidy d.tree)
    (hquiet : d.Quiet) {rotated : Bool} (hrun : g.rotateIfLarge d = (.ok rotated, d')) :
    g.Kept d d' ∧ ∀ j, g.held d'.tree j =
      if rotated = true then g.shifted (g.held d.tree) j else g.held d.tree j := by
  obtain ⟨htree, hfaults⟩ := FileAction.length_eq g.path d
  have hseen : g.Kept d (FileAction.length g.path d).2 := .of_tree_eq htidy htree hfaults
  rcases rotateIfLarge_cases hrun with ⟨rfl, rfl, -⟩ | ⟨rfl, hrotate, -⟩
  · refine ⟨hseen, fun j => ?_⟩
    simp [htree]
  · obtain ⟨hkept, hheld⟩ := rotate_eq_ok h hseen.tidy (hquiet.of_faults_eq hfaults) hrotate
    refine ⟨hseen.trans hkept, fun j => ?_⟩
    simp [hheld, htree]

/-- An active file that was left alone is as it was. -/
theorem tree_eq_of_rotateIfLarge (hrun : g.rotateIfLarge d = (.ok false, d')) :
    d'.tree = d.tree ∧ d'.faults = d.faults := by
  rcases rotateIfLarge_cases hrun with ⟨-, rfl, -⟩ | ⟨hrotated, -, -⟩
  · exact FileAction.length_eq g.path d
  · contradiction

/-- What was replaced has a name. -/
theorem exists_named_of_rotateIfLarge (hrun : g.rotateIfLarge d = (.ok true, d')) :
    ∃ way name, Path.Named g.path way name := by
  rcases rotateIfLarge_cases hrun with ⟨hrotated, -, -⟩ | ⟨-, hrotate, -⟩
  · contradiction
  · exact exists_named_of_rotate hrotate

/-- An active file that was replaced is large. -/
theorem isLarge_of_rotateIfLarge (h : Path.Named g.path way name) {content : String}
    (hcontent : g.held d.tree 0 = some content) (hrun : g.rotateIfLarge d = (.ok true, d')) :
    g.isLarge content.utf8ByteSize = true := by
  obtain ⟨-, -, hseen, -⟩ :=
    Disk.query_eq (.length (Path.route g.path)) (·.lengthAt (Path.route g.path)) d
  rcases rotateIfLarge_cases hrun with ⟨hrotated, -, -⟩ | ⟨-, -, size, hsize, hlarge⟩
  · contradiction
  · have hlength := length_eq_of_held (i := 0) h hcontent (hseen size hsize)
    rwa [← hlength]

/-- An active file that was left alone is not large, if its directory can be
walked to. -/
theorem not_isLarge_of_rotateIfLarge (h : Path.Named g.path way name) (htidy : g.Tidy d.tree)
    (hquiet : d.Quiet) (hway : g.Way d.tree) {content : String}
    (hcontent : g.held d.tree 0 = some content) (hrun : g.rotateIfLarge d = (.ok false, d')) :
    g.isLarge content.utf8ByteSize = false := by
  obtain ⟨-, -, -, hseen⟩ :=
    Disk.query_eq (.length (Path.route g.path)) (·.lengthAt (Path.route g.path)) d
  obtain ⟨place, hlookup⟩ := exists_lookup h hway (htidy.readable hcontent) hcontent
  have hlookup : d.tree.lookup (Path.route g.path) = .ok (place, .file content) := hlookup
  have hlength : (FileAction.length g.path d).1 = .ok content.utf8ByteSize := by
    rw [FileAction.length, hseen hquiet, FileTree.lengthAt, hlookup]
    rfl
  rcases rotateIfLarge_cases hrun with ⟨-, -, hsmall⟩ | ⟨hrotated, -, -⟩
  · exact hsmall _ hlength
  · contradiction

/-! ## Opening and writing -/

/-- What can be opened has a name. -/
theorem exists_named {place : Place} (hrun : g.openActive d = (.ok place, d')) :
    ∃ way name, Path.Named g.path way name := by
  rw [openActive, FileAction.openForAppend] at hrun
  obtain ⟨hopen, -⟩ := Disk.call_eq_ok hrun
  obtain ⟨name, dir, happroach, hslash, -⟩ := FileTree.openForAppend_eq_ok hopen
  exact exists_named_of_approach happroach hslash

/-- The active file is there once it has been opened, and holds what it held;
the other generations are as before. -/
theorem openActive_eq_ok (h : Path.Named g.path way name) (htidy : g.Tidy d.tree) {place : Place}
    (hrun : g.openActive d = (.ok place, d')) :
    place = g.slot d.tree.home 0 ∧ g.Kept d d' ∧ g.Way d.tree ∧
      ∀ j, g.held d'.tree j =
        if j = 0 then some ((g.held d.tree 0).getD "") else g.held d.tree j := by
  rw [openActive, FileAction.openForAppend] at hrun
  obtain ⟨hopen, hfaults⟩ := Disk.call_eq_ok hrun
  obtain ⟨last, dir, happroach, -, hsize, rfl, hplace⟩ := FileTree.openForAppend_eq_ok hopen
  obtain ⟨hslot, hway, hreadable⟩ := slot_of_approach (i := 0) h happroach
  rw [hslot] at hplace
  refine ⟨hslot, ?_⟩
  rcases hplace with ⟨hnone, htree⟩ | ⟨node, hnode, hfile, htree⟩
  · obtain ⟨hhome, htidy', hheld⟩ := held_put (i := 0) h htidy (hreadable hsize) htree
    refine ⟨⟨fun k => by rw [hhome], hfaults, htidy', fun _ => hway⟩, hway, fun j => ?_⟩
    have hempty : g.held d.tree 0 = none := FileTree.fileAt_eq_none hnone
    rw [hheld, hempty, Option.getD_none]
  · have hheld : ∃ content, g.held d.tree 0 = some content := by
      rcases htidy 0 node hnode with hdir | ⟨-, content, rfl⟩
      · exact absurd hdir hfile
      · exact ⟨content, FileTree.fileAt_eq_some.2 hnode⟩
    obtain ⟨content, hcontent⟩ := hheld
    refine ⟨.of_tree_eq htidy htree hfaults, hway, fun j => ?_⟩
    rw [htree]
    split
    · next hj => rw [hj, hcontent, Option.getD_some]
    · rfl

/-- A text that was written as a whole stands at the end of what was opened,
whatever the disk may do to other calls. -/
theorem append_of_appendWhole_eq_ok {place : Place} {text : String}
    (hrun : appendWhole place text d = (.ok (), d')) :
    d.tree.append place text = .ok d'.tree ∧ d'.faults = d.faults := by
  have happended := appended_appendWhole place text d
  rw [hrun] at happended
  cases happended with
  | whole hlength happend =>
      have hseen := FileAction.lengthOf_eq place d
      rw [hlength] at hseen
      obtain ⟨htext, hfaults⟩ := Disk.change_eq_ok happend
      rw [hseen.1] at htext
      exact ⟨htext, hfaults.trans hseen.2⟩

/-- A text that was written at the end of the active file is there. -/
theorem appendWhole_eq_ok (h : Path.Named g.path way name) (htidy : g.Tidy d.tree)
    {content text : String} (hcontent : g.held d.tree 0 = some content)
    (hrun : appendWhole (g.slot d.tree.home 0) text d = (.ok (), d')) :
    d'.faults = d.faults ∧ g.Tidy d'.tree ∧
      ∀ j, g.held d'.tree j = if j = 0 then some (content ++ text) else g.held d.tree j := by
  obtain ⟨htext, hfaults⟩ := append_of_appendWhole_eq_ok hrun
  rw [FileTree.append, FileTree.fileAt_eq_some.1 hcontent] at htext
  dsimp only at htext
  rw [Except.ok.injEq] at htext
  obtain ⟨-, htidy', hheld⟩ := held_put (i := 0) h htidy (htidy.readable hcontent) htext.symm
  exact ⟨hfaults, htidy', hheld⟩

/-- A batch that was written stands at the end of what was opened after the
turn of the generations, however that turned out. -/
theorem append_of_write_eq_ok {batch : List String} (hbatch : ¬batch.isEmpty = true)
    (hrun : g.write batch d = (.ok (), d')) :
    ∃ place opened, g.openActive (g.rotateIfLarge d).2 = (.ok place, opened) ∧
      opened.tree.append place (ended batch) = .ok d'.tree := by
  rw [write, if_neg hbatch] at hrun
  have hrun := FileAction.outcome_bind_eq_ok hrun
  obtain ⟨place, opened, hopen, hrun⟩ := FileAction.bind_eq_ok hrun
  exact ⟨place, opened, hopen, (append_of_appendWhole_eq_ok hrun).1⟩

/-- If what was opened is a file, then the batch stands behind what it held. -/
theorem fileAt_of_write_eq_ok {batch : List String} (hbatch : ¬batch.isEmpty = true)
    (hrun : g.write batch d = (.ok (), d')) :
    ∃ place opened, g.openActive (g.rotateIfLarge d).2 = (.ok place, opened) ∧
      ∀ content, opened.tree.fileAt place = some content →
        d'.tree.fileAt place = some (content ++ ended batch) := by
  obtain ⟨place, opened, hopen, happend⟩ := append_of_write_eq_ok hbatch hrun
  refine ⟨place, opened, hopen, fun content hcontent => ?_⟩
  rw [openActive, FileAction.openForAppend] at hopen
  obtain ⟨hopened, -⟩ := Disk.call_eq_ok hopen
  obtain ⟨name, dir, -, -, -, rfl, -⟩ := FileTree.openForAppend_eq_ok hopened
  rw [FileTree.append, FileTree.fileAt_eq_some.1 hcontent] at happend
  dsimp only at happend
  rw [Except.ok.injEq] at happend
  have hput := opened.tree.node?_put (List.cons_ne_nil name dir) (.file (content ++ ended batch))
    (name :: dir)
  rw [if_pos rfl, happend] at hput
  exact FileTree.fileAt_eq_some.2 hput

/-- The generations after the active file was replaced, or not. -/
def turned (g : Generations) (rotated : Bool) (files : Nat → Option String) (index : Nat) :
    Option String :=
  if rotated = true then g.shifted files index else files index

@[simp] theorem turned_true (files : Nat → Option String) :
    g.turned true files = g.shifted files := rfl

@[simp] theorem turned_false (files : Nat → Option String) : g.turned false files = files := rfl

/-- The generations after a batch was written: it stands at the end of the
active file, after they have moved on if that was large. -/
def written (g : Generations) (rotated : Bool) (batch : List String)
    (files : Nat → Option String) (index : Nat) : Option String :=
  if index = 0 then some ((g.turned rotated files 0).getD "" ++ ended batch)
  else g.turned rotated files index

/-- **A batch that was written** stands at the end of the active file, after
the generations have moved on if the file was large. -/
theorem write_eq_ok (htidy : g.Tidy d.tree) (hquiet : d.Quiet) {batch : List String}
    (hbatch : ¬batch.isEmpty = true) {rotated : Bool}
    (hrotate : (g.rotateIfLarge d).1 = .ok rotated) (hrun : g.write batch d = (.ok (), d')) :
    d'.faults = d.faults ∧ g.Tidy d'.tree ∧
      ∀ j, g.held d'.tree j = g.written rotated batch (g.held d.tree) j := by
  rw [write, if_neg hbatch] at hrun
  have hrun := FileAction.outcome_bind_eq_ok hrun
  rcases hturn : g.rotateIfLarge d with ⟨result, after⟩
  rw [hturn] at hrotate hrun
  dsimp only at hrotate hrun
  subst hrotate
  obtain ⟨place, opened, hopen, hrun⟩ := FileAction.bind_eq_ok hrun
  obtain ⟨way, name, h⟩ := exists_named hopen
  obtain ⟨hkept, hheld⟩ := rotateIfLarge_eq_ok h htidy hquiet hturn
  obtain ⟨rfl, hkept', -, hheld'⟩ := openActive_eq_ok h hkept.tidy hopen
  have hcontent := hheld' 0
  rw [if_pos rfl] at hcontent
  rw [← hkept'.slot_eq] at hrun
  obtain ⟨hfaults, htidy', hheld''⟩ := appendWhole_eq_ok h hkept'.tidy hcontent hrun
  refine ⟨?_, htidy', ?_⟩
  · rw [hfaults, hkept'.faults_eq, hkept.faults_eq]
  · intro j
    rw [hheld'', written]
    split
    · rw [hheld]
      rfl
    · next hj =>
        rw [hheld', if_neg hj, hheld]
        rfl

/-- Whether a batch goes to the file without a fault, the turn of the
generations included. -/
def smooth (g : Generations) (batch : List String) (d : Disk) : Bool :=
  batch.isEmpty || ((g.rotateIfLarge d).1.isOk && (g.write batch d).1.isOk)

/-- A result that is no fault is a value. -/
theorem exists_of_isOk {ε α : Type} {x : Except ε α} (h : x.isOk = true) :
    ∃ value, x = .ok value := by
  cases x with
  | error fault => contradiction
  | ok value => exact ⟨value, rfl⟩

/-- A result that is no value is a fault. -/
theorem exists_error_of_isOk {ε α : Type} {x : Except ε α} (h : x.isOk = false) :
    ∃ fault, x = .error fault := by
  cases x with
  | error fault => exact ⟨fault, rfl⟩
  | ok value => contradiction

/-- A batch that goes to the file without a fault was written, unless it is
empty and nothing happens. -/
theorem write_of_smooth (htidy : g.Tidy d.tree) (hquiet : d.Quiet) {batch : List String}
    (h : g.smooth batch d = true) :
    (batch = [] ∧ (g.write batch d).2 = d) ∨
      ((g.write batch d).2.faults = d.faults ∧
        g.Tidy (g.write batch d).2.tree ∧
        ∃ rotated, ∀ j, g.held (g.write batch d).2.tree j =
          g.written rotated batch (g.held d.tree) j) := by
  by_cases hbatch : batch.isEmpty = true
  · rw [List.isEmpty_iff] at hbatch
    subst hbatch
    exact .inl ⟨rfl, rfl⟩
  · rw [smooth, Bool.eq_false_iff.2 hbatch, Bool.false_or, Bool.and_eq_true] at h
    obtain ⟨hrotate, hwrite⟩ := h
    obtain ⟨rotated, hrotated⟩ := exists_of_isOk hrotate
    obtain ⟨⟨⟩, hwritten⟩ := exists_of_isOk hwrite
    have hrun : g.write batch d = (.ok (), (g.write batch d).2) := Prod.ext hwritten rfl
    obtain ⟨hfaults, htidy', hheld⟩ := write_eq_ok htidy hquiet hbatch hrotated hrun
    exact .inr ⟨hfaults, htidy', rotated, hheld⟩

end Generations

end TraceLog
