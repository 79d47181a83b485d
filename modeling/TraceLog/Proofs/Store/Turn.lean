import TraceLog.Proofs.Store.Shift
import TraceLog.Proofs.Store.Sizes

/-!
# TraceLog.Proofs.Store.Turn

Whether the active file is replaced, and where the generations are then.

If every generation is a file or missing and no call fails, then the answer
depends on the active file alone: it is replaced unless it is missing, empty or
below the threshold.

* `Generations.Clear` — a generation is a file or missing;
* `Generations.rotateIfLarge_outcome` — the answer, and all places afterwards.
-/

namespace TraceLog

namespace Generations

variable {g : Generations} {t : FileTree} {d : Disk} {index : Nat}

/-! ## Files or nothing -/

/-- The path of a generation leads to a file, or there is nothing there. -/
def Clear (g : Generations) (t : FileTree) (index : Nat) : Prop :=
  g.Found t index ∨ t.lookup (Path.route (g.pathOf index)) = .error .missing

instance (g : Generations) (t : FileTree) (index : Nat) : Decidable (g.Clear t index) :=
  inferInstanceAs (Decidable (_ ∨ _))

/-- If the active file is there and the other generations are clear, then
nothing keeps them from moving on. -/
theorem unhindered_of_clear (hquiet : d.Quiet) (hfound : g.Found d.tree 0)
    (hclear : ∀ k, k < g.count → g.Clear d.tree k) :
    (∀ k, k < g.count → g.Plain d.tree k) ∧ g.Unhindered d.tree d := by
  obtain ⟨place, content, hlookup⟩ := hfound
  obtain ⟨way, name, h⟩ := exists_named_of_lookup_file hlookup
  obtain ⟨hactive, hway, -⟩ := slot_of_lookup h hlookup
  have hslots : ∀ k, k < g.count → g.Plain d.tree k ∧ Path.Readable (g.pathOf k) := by
    intro k hk
    rcases hclear k hk with ⟨place, content, hlookup⟩ | hmissing
    · obtain ⟨-, -, hreadable⟩ := slot_of_lookup h hlookup
      exact ⟨.inr ⟨place, content, hlookup⟩, hreadable⟩
    · obtain ⟨hnone, hreadable⟩ := slot_of_missing h hway hmissing
      exact ⟨.inl hnone, hreadable⟩
  exact ⟨fun k hk => (hslots k hk).1, hquiet, fun k hk => (hslots k hk).2, by simp [hactive]⟩

/-! ## The outcome -/

/-- Without a reason to fail, all generations move on. -/
theorem rotate_eq_movedOn (hgrounded : d.tree.Grounded)
    (hplain : ∀ k, k < g.count → g.Plain d.tree k) (hunhindered : g.Unhindered d.tree d) :
    ∃ d', g.rotate d = (.ok (), d') ∧ g.MovedOn 0 d.tree d'.tree := by
  have hprogress := progress_rotate hgrounded hplain hunhindered.quiet.sighted
  cases hrun : g.rotate d with
  | mk result d' =>
      rw [hrun] at hprogress
      cases hprogress with
      | finished hmoved hfaults => exact ⟨d', rfl, hmoved⟩
      | stopped hmoved hfaults hreached hcause => exact absurd hunhindered hcause

/-- Where no active file is, there is nothing to replace. -/
theorem rotateIfLarge_of_missing (hsight : d.Sighted)
    (hmissing : d.tree.lookup (Path.route g.path) = .error .missing) :
    ∃ d', g.rotateIfLarge d = (.ok false, d') ∧ d'.tree = d.tree := by
  have hsize : (FileAction.length g.path d).1 = .error .missing := by
    rw [FileAction.length_fst_eq g.path hsight, FileTree.lengthAt, hmissing]
  refine ⟨(FileAction.length g.path d).2, ?_, (FileAction.length_eq g.path d).1⟩
  rw [rotateIfLarge, FileAction.run_bind, Disk.run_outcome, hsize]
  rfl

/-- An active file is replaced exactly if it is large. -/
theorem rotateIfLarge_of_file (hsight : d.Sighted) {place : Place} {content : String}
    (hfile : d.tree.lookup (Path.route g.path) = .ok (place, .file content)) :
    ∃ seen, seen.tree = d.tree ∧ seen.faults = d.faults ∧ g.rotateIfLarge d =
      if g.isLarge content.utf8ByteSize = true then (g.rotate >>= fun _ => pure true) seen
      else (.ok false, seen) := by
  have hsize : (FileAction.length g.path d).1 = .ok content.utf8ByteSize := by
    rw [FileAction.length_fst_eq g.path hsight, FileTree.lengthAt, hfile]
    rfl
  obtain ⟨htree, hfaults⟩ := FileAction.length_eq g.path d
  refine ⟨(FileAction.length g.path d).2, htree, hfaults, ?_⟩
  rw [rotateIfLarge, FileAction.run_bind, Disk.run_outcome, hsize]
  dsimp only
  split
  · rfl
  · rfl

/-- **What one check does.**  Let every generation be a file or missing, in any
pattern, and let no call fail by itself.  The check leaves everything as it is
if the active file is missing, empty or below the threshold.  Otherwise every
generation, missing ones included, is then where the next one was, the active
file is missing, the oldest generation is gone, and all else is as before. -/
theorem rotateIfLarge_outcome (hgrounded : d.tree.Grounded) (hquiet : d.Quiet)
    (hclear : ∀ k, k < g.count → g.Clear d.tree k) :
    ∃ rotated d', g.rotateIfLarge d = (.ok rotated, d') ∧
      (rotated = false ↔
        d.tree.lookup (Path.route g.path) = .error .missing ∨
          ∃ place content, d.tree.lookup (Path.route g.path) = .ok (place, .file content) ∧
            (content = "" ∨ g.Below content.utf8ByteSize)) ∧
      (rotated = false → d'.tree = d.tree) ∧
      (rotated = true →
        d'.tree.home = d.tree.home ∧
        d'.tree.node? (g.slot d.tree.home 0) = none ∧
        (∀ k, k + 1 < g.count → d'.tree.node? (g.slot d.tree.home (k + 1)) =
          d.tree.node? (g.slot d.tree.home k)) ∧
        ∀ q, (∀ k, k < g.count → q ≠ g.slot d.tree.home k) →
          d'.tree.node? q = d.tree.node? q) := by
  rcases hclear 0 g.count_pos with hfound | hmissing
  · obtain ⟨hplain, hunhindered⟩ := unhindered_of_clear hquiet hfound hclear
    obtain ⟨place, content, hlookup⟩ := hfound
    have hfile : d.tree.lookup (Path.route g.path) = .ok (place, .file content) := hlookup
    obtain ⟨seen, htree, hfaults, hrun⟩ := rotateIfLarge_of_file hquiet.sighted hfile
    have hlarge := isLarge_eq_true_iff (g := g) content.utf8ByteSize
    by_cases hreplaced : g.isLarge content.utf8ByteSize = true
    · rw [← htree] at hgrounded hplain hunhindered
      obtain ⟨d', hrotate, hmoved⟩ :=
        rotate_eq_movedOn hgrounded hplain (hunhindered.of_faults_eq hfaults)
      rw [htree] at hmoved
      rw [if_pos hreplaced, FileAction.run_bind, hrotate] at hrun
      refine ⟨true, d', hrun, ?_, by simp, fun _ => ⟨hmoved.home_eq, ?_, ?_, hmoved.node?_other⟩⟩
      · simpa [hfile] using hlarge.1 hreplaced
      · exact hmoved.node?_slot 0 g.count_pos
      · exact fun k hk => hmoved.node?_slot (k + 1) hk
    · rw [if_neg hreplaced] at hrun
      rw [hlarge, not_not] at hreplaced
      exact ⟨false, seen, hrun, by simpa [hfile] using hreplaced, fun _ => htree, by simp⟩
  · obtain ⟨d', hrun, htree⟩ := rotateIfLarge_of_missing hquiet.sighted hmissing
    have hlookup : d.tree.lookup (Path.route g.path) = .error .missing := hmissing
    exact ⟨false, d', hrun, by simp [hlookup], fun _ => htree, by simp⟩

/-- A gap between the generations moves on like a file. -/
theorem rotateIfLarge_outcome_of_gap :
    let g : Generations := ⟨"t.log", 3, ⟨0⟩, by decide⟩
    let d : Disk := .quiet ⟨[(["t.log"], .file "a\n"), (["t.log.2"], .file "c\n")], [], 4096⟩
    ∃ d', g.rotateIfLarge d = (.ok true, d') ∧
      d'.tree.node? (g.slot [] 0) = none ∧
      d'.tree.node? (g.slot [] 1) = some (.file "a\n") ∧
      d'.tree.node? (g.slot [] 2) = none := by
  intro g d
  have hanswer : (g.rotateIfLarge d).1 = .ok true := by decide +kernel
  obtain ⟨rotated, d', hrun, -, -, hmoved⟩ :=
    rotateIfLarge_outcome (g := g) (d := d) (by decide +kernel) (fun _ _ => rfl) (by decide +kernel)
  rw [hrun, Except.ok.injEq] at hanswer
  obtain ⟨-, hfirst, hslots, -⟩ := hmoved hanswer
  have hactive : d.tree.node? (g.slot d.tree.home 0) = some (.file "a\n") := by decide +kernel
  have hgap : d.tree.node? (g.slot d.tree.home 1) = none := by decide +kernel
  refine ⟨d', by rw [hrun, hanswer], hfirst, ?_, ?_⟩
  · exact (hslots 0 (by decide)).trans hactive
  · exact (hslots 1 (by decide)).trans hgap

end Generations

end TraceLog
