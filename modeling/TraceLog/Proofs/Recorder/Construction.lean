import TraceLog.Proofs.Recorder.Calls
import TraceLog.Proofs.Store.Intact

/-!
# TraceLog.Proofs.Recorder.Construction

Recorders that could not be made.

Settings that are refused have nothing done for them.  Otherwise directories
are made first, which stay; then the active file of an earlier session is
replaced if it is large, which changes nothing when it fails; and then the file
is opened, which cannot fail once something has been moved.  So what stood
before still stands, unless the path leads through what is moved.

* `Recorder.prepare_eq_error` — a file that could not be prepared;
* `Recorder.of_eq_error` — a recorder that could not be made;
* `Recorder.of_through_generation` — a path that leads through a generation.
-/

namespace TraceLog

namespace FileTree

/-- Making a directory leaves everything in a directory. -/
theorem Grounded.makeDirectory {t t' : FileTree} {r : Route} (h : t.Grounded)
    (hmade : t.makeDirectory r = .ok t') : t'.Grounded := by
  rw [FileTree.makeDirectory] at hmade
  split at hmade
  · contradiction
  · contradiction
  · next name dir happroach =>
      split at hmade
      · contradiction
      · next hentry =>
          obtain ⟨-, hnode⟩ := entry?_eq_ok_iff.1 hentry
          obtain ⟨-, way, -, -, -, hwalk⟩ := approach_eq_entry happroach
          have hdir := h.node?_of_walk (h.node?_origin r) hwalk
          have hput := t.node?_put (List.cons_ne_nil name dir) .directory
          have hkeep : ∀ q, t.node? q = some .directory →
              (t.put (name :: dir) .directory).node? q = some .directory := by
            intro q hq
            rw [hput]
            split
            · rfl
            · exact hq
          rw [Except.ok.injEq] at hmade
          subst hmade
          refine grounded_of_parent (fun q hq => ?_) (hkeep _ h.2)
          rw [hput] at hq
          split at hq
          · next heq =>
              subst heq
              exact hkeep dir hdir
          · obtain ⟨found, hfound⟩ := Option.ne_none_iff_exists'.1 hq
            exact hkeep _ (h.parent hfound)
      · contradiction

end FileTree

namespace Recorder

variable {path : String} {g : Generations} {d d' : Disk} {fault : SystemFault}

theorem grounded_makeParent (path : String) (hgrounded : d.tree.Grounded) :
    (FileAction.makeParent path d).2.tree.Grounded := by
  have hsteady : FileAction.Steady fun d d' => d.tree.Grounded → d'.tree.Grounded :=
    ⟨fun htree _ hbefore => htree ▸ hbefore, fun h h' => h' ∘ h⟩
  exact FileAction.Within.makeParent hsteady
    (fun r => .makeDirectory hsteady r fun hmade _ hbefore => hbefore.makeDirectory hmade) path d
    hgrounded

/-- **A file that could not be prepared** has cost nothing: all that was done is
to make directories. -/
theorem prepare_eq_error (hgrounded : d.tree.Grounded) (hquiet : d.Quiet)
    (hdirect : g.count = 1 ∨ g.Direct d.tree.home)
    (hrun : prepare path g d = (.error fault, d')) : d.tree.AddsDirectories d'.tree := by
  have hgrows := FileAction.onlyMakes_makeParent path d
  have hgrounded' := grounded_makeParent path hgrounded
  rw [prepare, FileAction.run_bind] at hrun
  rcases hmake : FileAction.makeParent path d with ⟨failed | _, made⟩
  · rw [hmake] at hrun hgrows
    cases hrun
    exact hgrows.tree
  · rw [hmake] at hrun hgrows hgrounded'
    dsimp only at hrun hgrows hgrounded'
    have hturn := Generations.rotateIfLarge_intact (g := g) hgrounded'
      (hquiet.of_faults_eq hgrows.faults_eq) (hgrows.tree.home_eq ▸ hdirect)
    rw [FileAction.run_bind] at hrun
    rcases hrotate : g.rotateIfLarge made with ⟨failed | rotated, turned⟩
    · rw [hrotate] at hrun hturn
      cases hrun
      rcases hturn with ⟨-, htree⟩ | ⟨hok, -, -⟩
      · exact htree ▸ hgrows.tree
      · contradiction
    · rw [hrotate] at hrun hturn
      dsimp only at hrun
      rw [FileAction.run_bind] at hrun
      rcases hopen : g.openActive turned with ⟨failed | place, opened⟩
      · rw [hopen] at hrun
        cases hrun
        rcases hturn with ⟨-, htree⟩ | ⟨-, hfreed, hquiet'⟩
        · rw [Generations.openActive, FileAction.openForAppend] at hopen
          rw [(Disk.call_eq_error hopen).1]
          exact htree ▸ hgrows.tree
        · obtain ⟨place, opened', hopened⟩ := hfreed.exists_openActive hquiet'
          rw [hopened] at hopen
          cases hopen
      · rw [hopen] at hrun
        cases hrun

/-- **A recorder that could not be made** has cost nothing.  The settings were
refused, or the file could not be prepared, and that is said of the path that
they give.  What stood before still stands, with what it held, and there may be
new directories, unless something is moved on that the path leads through: if
more than one file is kept, then the path has to end in the name of its file
and must not lead through one of its own generations. -/
theorem of_eq_error {t : Tracing} {now : Nat} {disk disk' : Disk} {failure : Failure}
    (hquiet : disk.Quiet) (hgrounded : disk.tree.Grounded)
    (hrun : Recorder.of t now disk = (.error failure, disk')) :
    ((∃ fault, failure = .config fault) ∨ ∃ fault, failure = .init t.path (.system fault)) ∧
      ((Generations.ofTracing t).count = 1 ∨ (Generations.ofTracing t).Direct disk.tree.home →
        disk.tree.AddsDirectories disk'.tree) := by
  rw [Recorder.of] at hrun
  split at hrun
  · cases hrun
  · split at hrun
    · next fault _ =>
        cases hrun
        exact ⟨.inl ⟨fault, rfl⟩, fun _ => .refl _⟩
    · dsimp only at hrun
      split at hrun
      · next fault after hprepare =>
          cases hrun
          exact ⟨.inr ⟨fault, rfl⟩, fun hdirect =>
            prepare_eq_error hgrounded hquiet hdirect hprepare⟩
      · cases hrun

/-- The oldest generation is a directory here, which cannot be removed; a
directory on the way was made before that. -/
theorem of_eq_error_of_directory :
    let t := ((Tracing.toFile "n/../d/t").withMaxFileSize ⟨0⟩).withMaxFiles 2
    let tree : FileTree := ⟨[(["d"], .directory), (["t", "d"], .file "x\n"),
      (["t.1", "d"], .directory), (["u", "t.1", "d"], .file "y\n")], [], 4096⟩
    let made := Recorder.of t 0 (.quiet tree)
    tree.Grounded ∧ (Generations.ofTracing t).Direct tree.home ∧ made.1.isOk = false ∧
      tree.AddsDirectories made.2.tree ∧ tree.node? ["n"] = none ∧
      made.2.tree.node? ["n"] = some .directory := by
  intro t tree made
  have hgrounded : (Disk.quiet tree).tree.Grounded := by decide +kernel
  have hdirect : (Generations.ofTracing t).Direct tree.home := by
    refine ⟨⟨["n", "..", "d"], "t", by decide +kernel, by decide +kernel, by decide, by decide⟩, ?_⟩
    intro k hk
    obtain rfl : k = 0 := by
      have hcount : (Generations.ofTracing t).count = 2 := by decide +kernel
      omega
    decide +kernel
  have hfailed : made.1.isOk = false := by decide +kernel
  obtain ⟨failure, hfailure⟩ := Generations.exists_error_of_isOk hfailed
  obtain ⟨-, hkept⟩ := of_eq_error (fun _ _ => rfl) hgrounded (Prod.ext hfailure rfl)
  exact ⟨hgrounded, hdirect, hfailed, hkept (.inr hdirect), by decide +kernel, by decide +kernel⟩

/-- **A path that leads through a generation** may cost what stood before: the
oldest generation is gone, and its directory has taken the place. -/
theorem of_through_generation :
    let t := ((Tracing.toFile "a.1/../a").withMaxFileSize ⟨0⟩).withMaxFiles 3
    let tree : FileTree := ⟨[(["a.1"], .directory), (["a"], .file "x\n"),
      (["a.2"], .file "old\n")], [], 4096⟩
    let made := Recorder.of t 0 (.quiet tree)
    tree.Grounded ∧ made.1.isOk = false ∧
      tree.node? ["a.2"] = some (.file "old\n") ∧ made.2.tree.node? ["a.2"] = some .directory ∧
      made.2.tree.node? ["a.1"] = none := by
  decide +kernel

end Recorder

end TraceLog
