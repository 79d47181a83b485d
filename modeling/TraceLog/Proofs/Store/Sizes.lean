import TraceLog.Proofs.Number.Value
import TraceLog.Proofs.Store.Lines

/-!
# TraceLog.Proofs.Store.Sizes

How large the generations of a file get.

The active file is replaced before a batch is written if it is large by then.
So over any run every file is made up of whole batches, all of them but the
last one are below the threshold together, and what became an older generation
has reached it.

* `Generations.Use`, `Generations.follow?` — runs in which no call fails;
* `Generations.Sized` — what every call preserves;
* `Generations.isLarge_eq_true_iff` — what the comparison of sizes decides;
* `Generations.held_whole_batches` — the files after a run.
-/

namespace TraceLog

namespace Generations

variable {g : Generations} {d d' : Disk} {files files' : Nat → Option String}
  {batches : List (List String)} {batch : List String}

/-! ## Runs -/

/-- What is done with the generations of a file. -/
inductive Use where
  | openActive
  | rotateIfLarge
  | write (batch : List String)

/-- Uses the generations; none if a call on a file fails. -/
def use? (g : Generations) (d : Disk) : Use → Option Disk
  | .openActive =>
    match g.openActive d with
    | (.ok _, d) => some d
    | _ => none
  | .rotateIfLarge =>
    match g.rotateIfLarge d with
    | (.ok _, d) => some d
    | _ => none
  | .write batch => if g.smooth batch d then some (g.write batch d).2 else none

/-- Uses one after the other; none if one of them is none. -/
def follow? (g : Generations) (d : Disk) (uses : List Use) : Option Disk := uses.foldlM g.use? d

/-- The batch of a use; an empty one is none. -/
def Use.batch? : Use → Option (List String)
  | .write batch => if batch.isEmpty then none else some batch
  | _ => none

/-- The batches of a run, in the order in which they were written. -/
def batchesOf (uses : List Use) : List (List String) := uses.filterMap Use.batch?

/-! ## Batches in files -/

/-- A text that holds these batches, of which all but the last one are not
large together. -/
structure Filled (g : Generations) (parts : List (List String)) (content : String) : Prop where
  content_eq : content = ended parts.flatten
  before_last : 2 ≤ parts.length → g.isLarge (ended parts.dropLast.flatten).utf8ByteSize = false

/-- What every call preserves: each file is filled with batches that were
written in turn, the active one with the last of them, and the older ones are
large. -/
structure Sized (g : Generations) (batches : List (List String)) (files : Nat → Option String) :
    Prop where
  active : ∀ content, files 0 = some content →
    ∃ parts, parts <:+ batches ∧ g.Filled parts content
  older : ∀ k content, 1 ≤ k → files k = some content →
    g.isLarge content.utf8ByteSize = true ∧ ∃ parts, parts <:+: batches ∧ g.Filled parts content

theorem filled_nil (g : Generations) : g.Filled [] "" := ⟨rfl, by simp⟩

theorem filled_singleton (g : Generations) (batch : List String) :
    g.Filled [batch] (ended batch) := ⟨by simp, by simp⟩

/-- A batch goes behind others that are not large together. -/
theorem Filled.append {parts : List (List String)} {content : String} (h : g.Filled parts content)
    (hsmall : g.isLarge content.utf8ByteSize = false) (batch : List String) :
    g.Filled (parts ++ [batch]) (content ++ ended batch) := by
  have hcontent := h.content_eq
  constructor
  · simp [hcontent, ended_append]
  · intro _
    rwa [List.dropLast_concat, ← hcontent]

/-! ## One step -/

/-- Opening the active file creates it empty at most. -/
theorem Sized.opened (h : g.Sized batches files)
    (hfiles : ∀ j, files' j = if j = 0 then some ((files 0).getD "") else files j) :
    g.Sized batches files' := by
  constructor
  · intro content hcontent
    rw [hfiles, if_pos rfl, Option.some.injEq] at hcontent
    cases hactive : files 0 with
    | none =>
        have hempty : content = "" := by simpa [hactive] using hcontent.symm
        exact ⟨[], List.nil_suffix, hempty ▸ filled_nil g⟩
    | some before =>
        have hsame : content = before := by simpa [hactive] using hcontent.symm
        exact hsame ▸ h.active before hactive
  · intro k content hk hcontent
    have hne : k ≠ 0 := by omega
    rw [hfiles, if_neg hne] at hcontent
    exact h.older k content hk hcontent

/-- Moving the generations on makes the active file, if it is large, the
newest of the older ones. -/
theorem Sized.shifted (h : g.Sized batches files)
    (hlarge : ∀ content, files 0 = some content → g.isLarge content.utf8ByteSize = true) :
    g.Sized batches (g.shifted files) := by
  constructor
  · simp [Generations.shifted]
  · intro k content hk hcontent
    have hne : k ≠ 0 := by omega
    rw [Generations.shifted, if_neg hne] at hcontent
    split at hcontent
    · by_cases hnewest : k = 1
      · rw [hnewest] at hcontent
        obtain ⟨parts, hparts, hfilled⟩ := h.active content hcontent
        exact ⟨hlarge content hcontent, parts, hparts.isInfix, hfilled⟩
      · exact h.older (k - 1) content (by omega) hcontent
    · exact h.older k content hk hcontent

/-- A batch goes behind those in an active file that is not large. -/
theorem Sized.appended (h : g.Sized batches files)
    (hsmall : ∀ content, files 0 = some content → g.isLarge content.utf8ByteSize = false)
    (hfiles : ∀ j, files' j =
      if j = 0 then some ((files 0).getD "" ++ ended batch) else files j) :
    g.Sized (batches ++ [batch]) files' := by
  constructor
  · intro content hcontent
    rw [hfiles, if_pos rfl, Option.some.injEq] at hcontent
    cases hactive : files 0 with
    | none =>
        have hnew : content = ended batch := by simpa [hactive] using hcontent.symm
        exact ⟨[batch], List.suffix_append _ _, hnew ▸ filled_singleton g batch⟩
    | some before =>
        have hmore : content = before ++ ended batch := by simpa [hactive] using hcontent.symm
        obtain ⟨parts, hparts, hfilled⟩ := h.active before hactive
        obtain ⟨front, hfront⟩ := hparts
        have hsuffix : parts ++ [batch] <:+ batches ++ [batch] := ⟨front, by simp [← hfront]⟩
        exact ⟨parts ++ [batch], hsuffix, hmore ▸ hfilled.append (hsmall before hactive) batch⟩
  · intro k content hk hcontent
    have hne : k ≠ 0 := by omega
    rw [hfiles, if_neg hne] at hcontent
    obtain ⟨hlarge, parts, hparts, hfilled⟩ := h.older k content hk hcontent
    have hprefix : batches <+: batches ++ [batch] := List.prefix_append _ _
    exact ⟨hlarge, parts, hparts.trans hprefix.isInfix, hfilled⟩

/-! ## Whole runs -/

/-- What every use preserves: no call fails by itself, the files can be read,
and they are of the sizes they should be. -/
structure Sound (g : Generations) (batches : List (List String)) (d : Disk) : Prop where
  quiet : d.Quiet
  tidy : g.Tidy d.tree
  sized : g.Sized batches (g.held d.tree)

theorem Sound.openActive (h : g.Sound batches d) {place : Place}
    (hrun : g.openActive d = (.ok place, d')) : g.Sound batches d' := by
  obtain ⟨way, name, hnamed⟩ := exists_named hrun
  obtain ⟨-, hkept, -, hheld⟩ := openActive_eq_ok hnamed h.tidy hrun
  exact ⟨h.quiet.of_faults_eq hkept.faults_eq, hkept.tidy, h.sized.opened hheld⟩

/-- What is rotated was large. -/
theorem Sound.sized_shifted (h : g.Sound batches d) {way : Place} {name : String}
    (hnamed : Path.Named g.path way name) (hrun : g.rotateIfLarge d = (.ok true, d')) :
    g.Sized batches (g.shifted (g.held d.tree)) := by
  have hlarge : ∀ content, g.held d.tree 0 = some content →
      g.isLarge content.utf8ByteSize = true := fun _ hcontent =>
    isLarge_of_rotateIfLarge hnamed hcontent hrun
  exact h.sized.shifted hlarge

theorem Sound.rotateIfLarge (h : g.Sound batches d) {rotated : Bool}
    (hrun : g.rotateIfLarge d = (.ok rotated, d')) : g.Sound batches d' := by
  cases rotated with
  | false =>
      obtain ⟨htree, hfaults⟩ := tree_eq_of_rotateIfLarge hrun
      exact ⟨h.quiet.of_faults_eq hfaults, htree ▸ h.tidy, htree ▸ h.sized⟩
  | true =>
      obtain ⟨way, name, hnamed⟩ := exists_named_of_rotateIfLarge hrun
      obtain ⟨hkept, hheld⟩ := rotateIfLarge_eq_ok hnamed h.tidy h.quiet hrun
      have hsized := h.sized_shifted hnamed hrun
      have hfiles : g.held d'.tree = g.shifted (g.held d.tree) := funext hheld
      exact ⟨h.quiet.of_faults_eq hkept.faults_eq, hkept.tidy, hfiles ▸ hsized⟩

/-- A batch goes behind others that are not large: either the active file was
replaced, and nothing is in front of it, or it was found not to be large. -/
theorem Sound.write (h : g.Sound batches d) (hbatch : ¬batch.isEmpty = true)
    (hsmooth : g.smooth batch d = true) : g.Sound (batches ++ [batch]) (g.write batch d).2 := by
  rw [smooth, Bool.eq_false_iff.2 hbatch, Bool.false_or, Bool.and_eq_true] at hsmooth
  obtain ⟨rotated, hrotated⟩ := exists_of_isOk hsmooth.1
  obtain ⟨⟨⟩, hwritten⟩ := exists_of_isOk hsmooth.2
  have hrun : g.write batch d = (.ok (), (g.write batch d).2) := Prod.ext hwritten rfl
  have hturn : g.rotateIfLarge d = (.ok rotated, (g.rotateIfLarge d).2) := Prod.ext hrotated rfl
  obtain ⟨hfaults, htidy, hheld⟩ := write_eq_ok h.tidy h.quiet hbatch hrotated hrun
  obtain ⟨place, opened, hopen, -⟩ := append_of_write_eq_ok hbatch hrun
  obtain ⟨way, name, hnamed⟩ := exists_named hopen
  obtain ⟨hkept, -⟩ := rotateIfLarge_eq_ok hnamed h.tidy h.quiet hturn
  obtain ⟨-, -, hway, -⟩ := openActive_eq_ok hnamed hkept.tidy hopen
  refine ⟨h.quiet.of_faults_eq hfaults, htidy, ?_⟩
  cases rotated with
  | true =>
      have hsized := h.sized_shifted hnamed hturn
      have hnothing : g.shifted (g.held d.tree) 0 = none := by simp [Generations.shifted]
      exact hsized.appended (by simp [hnothing]) hheld
  | false =>
      have hsmall : ∀ content, g.held d.tree 0 = some content →
          g.isLarge content.utf8ByteSize = false := fun _ hcontent =>
        not_isLarge_of_rotateIfLarge hnamed h.tidy h.quiet (hkept.way hway) hcontent hturn
      exact h.sized.appended hsmall hheld

/-- **Every use preserves the sizes.** -/
theorem Sound.use (h : g.Sound batches d) {use : Use} (huse : g.use? d use = some d') :
    g.Sound (batches ++ use.batch?.toList) d' := by
  cases use with
  | openActive =>
      rw [use?] at huse
      split at huse
      · next place after hrun =>
          rw [Option.some.injEq] at huse
          simpa [Use.batch?] using huse ▸ h.openActive hrun
      · contradiction
  | rotateIfLarge =>
      rw [use?] at huse
      split at huse
      · next rotated after hrun =>
          rw [Option.some.injEq] at huse
          simpa [Use.batch?] using huse ▸ h.rotateIfLarge hrun
      · contradiction
  | write batch =>
      rw [use?] at huse
      split at huse
      · next hsmooth =>
          rw [Option.some.injEq] at huse
          by_cases hbatch : batch.isEmpty = true
          · have hsame : (g.write batch d).2 = d := by
              rw [Generations.write, if_pos hbatch]
              rfl
            rw [hsame] at huse
            simpa [Use.batch?, hbatch] using huse ▸ h
          · simpa [Use.batch?, hbatch] using huse ▸ h.write hbatch hsmooth
      · contradiction

theorem sound_of_follow? {uses : List Use} (h : g.Sound batches d)
    (hrun : g.follow? d uses = some d') : g.Sound (batches ++ batchesOf uses) d' := by
  induction uses generalizing batches d with
  | nil =>
      have hsame : d = d' := by simpa [follow?] using hrun
      simpa [batchesOf] using hsame ▸ h
  | cons use uses ih =>
      have hfirst : ∃ next, g.use? d use = some next ∧ g.follow? next uses = some d' := by
        simpa [follow?, List.foldlM_cons, Option.bind_eq_some_iff] using hrun
      obtain ⟨next, huse, hrest⟩ := hfirst
      have hsound := ih (h.use huse) hrest
      have hbatches : batchesOf (use :: uses) = use.batch?.toList ++ batchesOf uses := by
        cases hbatch : use.batch? <;> simp [batchesOf, hbatch]
      rwa [List.append_assoc, ← hbatches] at hsound

/-- Without a file there are no sizes to keep. -/
theorem sound_of_vacant (hquiet : d.Quiet)
    (hvacant : ∀ k, d.tree.node? (g.slot d.tree.home k) = none) : g.Sound [] d := by
  have hfiles : ∀ k, g.held d.tree k = none := fun k => FileTree.fileAt_eq_none (hvacant k)
  exact ⟨hquiet, tidy_of_vacant hvacant, ⟨by simp [hfiles], by simp [hfiles]⟩⟩

/-! ## Sizes in bytes -/

/-- A size in MiB is below the threshold.  Every size is below the positive
infinity, and none below the negative one or what is no number. -/
def Below (g : Generations) (size : Nat) : Prop :=
  if g.threshold.isFinite = true then (size : ℚ) / mebibyte < g.threshold.toRat
  else g.threshold.isNaN = false ∧ g.threshold.negative = false

/-- A file is large unless it is empty or below the threshold. -/
theorem isLarge_eq_true_iff (size : Nat) : g.isLarge size = true ↔ ¬(size = 0 ∨ g.Below size) := by
  have hbelow : g.threshold.exceedsRatio size mebibyte = true ↔ g.Below size := by
    rw [Below]
    split
    · next hfinite => exact Binary64.exceedsRatio_iff hfinite size (by decide)
    · next hinfinite =>
        rw [Binary64.exceedsRatio, if_neg hinfinite]
        cases g.threshold.isNaN <;> cases g.threshold.negative <;> simp
  rw [isLarge, ← hbelow]
  simp

/-- How many bytes the threshold is. -/
def thresholdBytes (g : Generations) : ℚ := g.threshold.toRat * mebibyte

/-- A file is large if it is not empty and has reached the threshold. -/
theorem isLarge_iff (hfinite : g.threshold.isFinite = true) (size : Nat) :
    g.isLarge size = true ↔ size ≠ 0 ∧ g.thresholdBytes ≤ size := by
  have hpos : (0 : ℚ) < mebibyte := by simp [mebibyte]
  rw [isLarge_eq_true_iff, Below, if_pos hfinite, div_lt_iff₀ hpos, not_or, not_lt, thresholdBytes]

/-- Lines that are ended are no empty text. -/
theorem utf8ByteSize_ended_ne_zero {lines : List String} (h : lines ≠ []) :
    (ended lines).utf8ByteSize ≠ 0 := by
  obtain ⟨line, rest, rfl⟩ := List.exists_cons_of_ne_nil h
  rw [ended_cons, String.utf8ByteSize_append, String.utf8ByteSize_append]
  have hnewline : "\n".utf8ByteSize = 1 := by decide
  omega

/-- What is written is no empty batch. -/
theorem ne_nil_of_mem_batchesOf {uses : List Use} (h : batch ∈ batchesOf uses) : batch ≠ [] := by
  rw [batchesOf, List.mem_filterMap] at h
  obtain ⟨use, -, hbatch⟩ := h
  cases use <;> simp [Use.batch?] at hbatch
  rintro rfl
  simp at hbatch

/-- **The files after a run.**  Let nothing stand where the generations would,
and let no call fail.  After any uses of the generations every file is made up
of whole batches, which were written one after the other; all of them but the
last one have fewer bytes together than the threshold, so that with a threshold
of zero there is one at most; and what is not the active file is not empty and
has reached the threshold. -/
theorem held_whole_batches (hfinite : g.threshold.isFinite = true) (hquiet : d.Quiet)
    (hvacant : ∀ k, d.tree.node? (g.slot d.tree.home k) = none) {uses : List Use}
    (hrun : g.follow? d uses = some d') {k : Nat} {content : String}
    (hcontent : g.held d'.tree k = some content) :
    (∃ parts, parts <:+: batchesOf uses ∧ content = ended parts.flatten ∧
      (2 ≤ parts.length →
        ((ended parts.dropLast.flatten).utf8ByteSize : ℚ) < g.thresholdBytes) ∧
      (g.thresholdBytes = 0 → parts.length ≤ 1)) ∧
    (1 ≤ k → content ≠ "" ∧ g.thresholdBytes ≤ content.utf8ByteSize) := by
  have hsized := (sound_of_follow? (sound_of_vacant hquiet hvacant) hrun).sized
  rw [List.nil_append] at hsized
  have hfilled : ∃ parts, parts <:+: batchesOf uses ∧ g.Filled parts content := by
    by_cases hactive : k = 0
    · obtain ⟨parts, hparts, hfilled⟩ := hsized.active content (hactive ▸ hcontent)
      exact ⟨parts, hparts.isInfix, hfilled⟩
    · exact (hsized.older k content (by omega) hcontent).2
  obtain ⟨parts, hparts, hfilled⟩ := hfilled
  have hbelow : 2 ≤ parts.length →
      ((ended parts.dropLast.flatten).utf8ByteSize : ℚ) < g.thresholdBytes := by
    intro hlength
    have hsmall := hfilled.before_last hlength
    have hsize : (ended parts.dropLast.flatten).utf8ByteSize ≠ 0 := by
      have hmore : 0 < parts.dropLast.length := by
        rw [List.length_dropLast]
        omega
      obtain ⟨first, rest, hdrop⟩ := List.exists_cons_of_length_pos hmore
      have hmem : first ∈ parts := List.mem_of_mem_dropLast (hdrop ▸ List.mem_cons_self)
      have hfirst : first ≠ [] := ne_nil_of_mem_batchesOf (hparts.subset hmem)
      refine utf8ByteSize_ended_ne_zero ?_
      simp [hdrop, hfirst]
    by_contra hreached
    have hlarge := (isLarge_iff hfinite _).2 ⟨hsize, not_lt.1 hreached⟩
    rw [hsmall] at hlarge
    contradiction
  refine ⟨⟨parts, hparts, hfilled.content_eq, hbelow, ?_⟩, ?_⟩
  · intro hzero
    by_contra hlength
    have hnegative := hbelow (by omega)
    rw [hzero] at hnegative
    exact absurd hnegative (by simp)
  · intro hk
    obtain ⟨hne, hreached⟩ :=
      (isLarge_iff hfinite _).1 (hsized.older k content hk hcontent).1
    refine ⟨?_, hreached⟩
    rintro rfl
    simp at hne

/-- Two batches that come to the four bytes of the threshold together are in
the older generation of two. -/
theorem held_whole_batches_of_three_writes :
    let g : Generations := ⟨"t.log", 2, ⟨4526117625507348480⟩, by decide⟩
    let uses : List Use := [.openActive, .write ["a"], .write ["b"], .write ["c"], .rotateIfLarge]
    ∃ d', g.follow? (.quiet ⟨[], [], 4096⟩) uses = some d' ∧
      g.held d'.tree 1 = some "a\nb\n" ∧
      (∃ parts, parts <:+: batchesOf uses ∧ "a\nb\n" = ended parts.flatten) ∧
      g.thresholdBytes ≤ "a\nb\n".utf8ByteSize := by
  intro g uses
  have hnamed : Path.Named g.path [] "t.log" :=
    ⟨by decide +kernel, by decide +kernel, by decide, by decide⟩
  have hvacant : ∀ k, (Disk.quiet ⟨[], [], 4096⟩).tree.node? (g.slot [] k) = none := by
    intro k
    have hne := slot_ne_nil hnamed [] k
    simp [Disk.quiet, FileTree.node?, FileTree.find?, hne]
  obtain ⟨d', hrun⟩ : ∃ d', g.follow? (.quiet ⟨[], [], 4096⟩) uses = some d' :=
    Option.isSome_iff_exists.1 (by decide +kernel)
  have hcontent : (g.follow? (.quiet ⟨[], [], 4096⟩) uses).bind (g.held ·.tree 1) =
      some "a\nb\n" := by decide +kernel
  rw [hrun, Option.bind_some] at hcontent
  obtain ⟨⟨parts, hparts, heq, -⟩, hlarge⟩ :=
    held_whole_batches (g := g) (by decide) (fun _ _ => rfl) hvacant hrun hcontent
  exact ⟨d', hrun, hcontent, ⟨parts, hparts, heq⟩, (hlarge (by decide)).2⟩

end Generations

end TraceLog
